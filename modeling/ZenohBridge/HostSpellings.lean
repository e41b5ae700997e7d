import ZenohBridge.HostKeys

/-!
# Spellings of a host

A client may write a host with a port, an operator may not, and the doors of a listener see
the same host in different spellings. `routing_key` answers the same for all of them, and what
it drops from a host is a port and brackets.

## Implementation notes

What flowscope reads off a ClientHello, a request head or an HTTP/2 head is an argument of the
functions that turn it into a key. The errors keep what their texts name.
-/

namespace ZenohBridge

section Key

variable {m : LowercaseMapping} {host key : String}

/-! ### Ports of clients -/

/-- The spellings whose port is written in decimal digits only. -/
inductive DecimalSpelling (key : String) : String → Prop where
  | bare : DecimalSpelling key key
  | brackets (h : 2 ≤ colonCount key) : DecimalSpelling key ("[" ++ key ++ "]")
  | port (p : String) (h : ':' ∉ key.toList) (hp : IsDecimalPort p) :
      DecimalSpelling key (key ++ ":" ++ p)
  | bracketsPort (p : String) (h : 2 ≤ colonCount key) (hp : IsDecimalPort p) :
      DecimalSpelling key ("[" ++ key ++ "]:" ++ p)

theorem IsDecimalPort.notMem {p : String} (hp : IsDecimalPort p) : '+' ∉ p.toList := by
  intro hmem
  exact absurd (hp.digits _ hmem) (by decide)

theorem IsPort.decimal {p : String} (hp : IsPort p) (h : '+' ∉ p.toList) : IsDecimalPort p := by
  obtain hdec | ⟨q, rfl, -⟩ := isPort_iff.mp hp
  · exact hdec
  · exact absurd (by simp) h

theorem decimalSpelling_iff {text : String} (hkey : IsRoutingKey key) (h : Spelling key text) :
    DecimalSpelling key text ↔ '+' ∉ text.toList := by
  have hplus : '+' ∉ key.toList := hkey.notMem (by decide)
  constructor
  · intro hdec
    cases hdec with
    | bare => exact hplus
    | brackets => simp [hplus]
    | port p _ hp => simp [hplus, hp.notMem]
    | bracketsPort p _ hp => simp [hplus, hp.notMem]
  · intro hno
    cases h with
    | bare => exact .bare
    | brackets hmany => exact .brackets hmany
    | port p hzero hp =>
        exact .port p (colonCount_eq_zero_iff.mp hzero) (hp.decimal fun hmem => hno (by simp [hmem]))
    | bracketsPort p hmany hp =>
        exact .bracketsPort p hmany (hp.decimal fun hmem => hno (by simp [hmem]))

/-- A character that is no letter is in the lower case of a narrow host when it is in the host. -/
theorem mem_toLowercase_iff (hnarrow : ∀ c ∈ host.toList, LowercaseMapping.IsNarrow c) {d : Char}
    (hd : d.isAlpha = false) (hk : d ≠ kelvinSign) :
    d ∈ (m.toLowercase host).toList ↔ d ∈ host.toList := by
  rw [m.toLowercase_of_isNarrow hnarrow, List.mem_map]
  constructor
  · rintro ⟨c, hc, h⟩
    rwa [← (LowercaseMapping.lowerChar_eq_iff hd hk).mp h]
  · intro h
    exact ⟨d, h, (LowercaseMapping.lowerChar_eq_iff hd hk).mpr rfl⟩

/-- Of an accepted host nothing but brackets and a decimal port is dropped exactly when the
host has no plus sign, which the integer parser takes in front of the digits. -/
theorem routingKey_decimal_port_iff (m : LowercaseMapping) {h k : String}
    (hok : routingKey m h = .ok k) :
    DecimalSpelling k (m.toLowercase h) ↔ '+' ∉ h.toList := by
  obtain ⟨hkey, hspell⟩ := routingKey_ok_iff.mp hok
  rw [decimalSpelling_iff hkey hspell, mem_toLowercase_iff (isNarrow_of_routingKey hok)]
  · decide
  · decide

theorem routingKey_decimal_port_browser :
    routingKey .narrow "API.Local:8080" = .ok "api.local" ∧
      DecimalSpelling "api.local" (LowercaseMapping.narrow.toLowercase "API.Local:8080") := by
  have hok : routingKey .narrow "API.Local:8080" = .ok "api.local" := by decide +kernel
  exact ⟨hok, (routingKey_decimal_port_iff .narrow hok).mpr (by decide)⟩

/-- A port with a plus sign is dropped as well. -/
theorem routingKey_plus_port :
    ¬∀ (m : LowercaseMapping) (h k : String), (∀ c ∈ h.toList, c.toNat < 128) →
      routingKey m h = .ok k → DecimalSpelling k (m.toLowercase h) := by
  intro hall
  have hok : routingKey .narrow "api.local:+80" = .ok "api.local" := by decide +kernel
  obtain ⟨hkey, hspell⟩ := routingKey_ok_iff.mp hok
  have hdec := hall .narrow "api.local:+80" "api.local" (by simp) hok
  exact absurd ((decimalSpelling_iff hkey hspell).mp hdec) (by decide +kernel)

/-! ### Hosts outside ASCII -/

/-- The text with `k` for each Kelvin sign, in lower case. -/
def foldKelvin (h : String) : String := String.ofList (h.toList.map LowercaseMapping.lowerChar)

theorem toLowercase_eq_foldKelvin (hnarrow : ∀ c ∈ host.toList, LowercaseMapping.IsNarrow c) :
    m.toLowercase host = foldKelvin host := by
  rw [← String.toList_inj, m.toLowercase_of_isNarrow hnarrow, foldKelvin, String.toList_ofList]

/-- A host is refused on both sides exactly when it has a character outside ASCII that is not
the Kelvin sign, or spells no key with `k` for the Kelvin sign. -/
theorem host_refused_iff (m : LowercaseMapping) (h : String) :
    ((∃ e, routingKey m h = .error e) ∧ ∃ e, specHostKey m h = .error e) ↔
      (∃ c ∈ h.toList, 128 ≤ c.toNat ∧ c ≠ kelvinSign) ∨
        ∀ k, IsRoutingKey k → ¬Spelling k (foldKelvin h) := by
  constructor
  · rintro ⟨⟨e, he⟩, -⟩
    by_cases hnarrow : ∀ c ∈ h.toList, LowercaseMapping.IsNarrow c
    · right
      intro k hkey hspell
      rw [← toLowercase_eq_foldKelvin (m := m) hnarrow] at hspell
      cases he.symm.trans (routingKey_ok_iff.mpr ⟨hkey, hspell⟩)
    · left
      obtain ⟨c, hc, hne⟩ : ∃ c ∈ h.toList, ¬LowercaseMapping.IsNarrow c := by
        simpa using hnarrow
      obtain ⟨hge, hk⟩ := not_or.mp hne
      exact ⟨c, hc, Nat.le_of_not_lt hge, hk⟩
  · intro hcond
    have hnot : ∀ k, routingKey m h ≠ .ok k := by
      intro k hok
      have hnarrow := isNarrow_of_routingKey hok
      obtain ⟨hkey, hspell⟩ := routingKey_ok_iff.mp hok
      obtain ⟨c, hc, hge, hk⟩ | hnone := hcond
      · have := (hnarrow c hc).resolve_right hk
        omega
      · rw [toLowercase_eq_foldKelvin hnarrow] at hspell
        exact hnone k hkey hspell
    constructor
    · cases hkey : routingKey m h with
      | error e => exact ⟨e, rfl⟩
      | ok k => exact absurd hkey (hnot k)
    · cases hkey : specHostKey m h with
      | error e => exact ⟨e, rfl⟩
      | ok k => exact absurd (specHostKey_ok hkey) (hnot k)

/-- The Kelvin sign alone is a host outside ASCII, and it has the key of `k`. -/
theorem kelvin_host_accepted :
    ¬∀ (m : LowercaseMapping) (h : String), (∃ c ∈ h.toList, 128 ≤ c.toNat) →
      (∃ e, routingKey m h = .error e) ∧ ∃ e, specHostKey m h = .error e := by
  intro hall
  obtain ⟨⟨e, he⟩, -⟩ := hall .narrow (String.ofList [kelvinSign])
    ⟨kelvinSign, by simp, by decide⟩
  have hok : routingKey .narrow (String.ofList [kelvinSign]) = .ok "k" := by decide +kernel
  cases he.symm.trans hok

/-! ### Hosts of operators -/

/-- A port in the lower case of a narrow host is a port of the host as written. -/
theorem map_lowerChar_port {text : List Char} {p : String} (hp : IsPort p)
    (h : text.map LowercaseMapping.lowerChar = p.toList) : text = p.toList := by
  rw [← h]
  conv_lhs => rw [← List.map_id text]
  apply List.map_congr_left
  intro c hc
  have hmem : LowercaseMapping.lowerChar c ∈ p.toList := h ▸ List.mem_map_of_mem hc
  have halpha : (LowercaseMapping.lowerChar c).isAlpha = false := by
    obtain hdigit | hplus := hp.chars _ hmem
    · exact isAlpha_of_isDigit hdigit
    · rw [hplus]
      decide
  have hkelvin : LowercaseMapping.lowerChar c ≠ kelvinSign := by
    intro heq
    exact absurd (hp.ascii _ hmem) (by rw [heq]; decide)
  exact (LowercaseMapping.lowerChar_eq_iff halpha hkelvin).mp rfl

theorem map_lowerChar_append {text a b : List Char} {sep : Char} (hsep : sep.isAlpha = false)
    (hk : sep ≠ kelvinSign) (h : text.map LowercaseMapping.lowerChar = a ++ sep :: b) :
    ∃ a' b', text = a' ++ sep :: b' ∧ a'.map LowercaseMapping.lowerChar = a ∧
      b'.map LowercaseMapping.lowerChar = b := by
  obtain ⟨a', rest, rfl, ha, hrest⟩ := List.map_eq_append_iff.mp h
  obtain ⟨x, b', rfl, hx, hb⟩ := List.map_eq_cons_iff.mp hrest
  obtain rfl := (LowercaseMapping.lowerChar_eq_iff hsep hk).mp hx
  exact ⟨a', b', rfl, ha, hb⟩

theorem notMem_of_map_lowerChar {text : List Char} {sep : Char} (hsep : sep.isAlpha = false)
    (hk : sep ≠ kelvinSign) (h : sep ∉ text.map LowercaseMapping.lowerChar) : sep ∉ text := by
  intro hmem
  exact h (List.mem_map.mpr ⟨sep, hmem, (LowercaseMapping.lowerChar_eq_iff hsep hk).mpr rfl⟩)

/-- A text that starts like a routing key does not start with a bracket. -/
theorem IsRoutingKey.append_ne (hkey : IsRoutingKey key) (rest text : List Char) :
    key.toList ++ rest ≠ '[' :: text := by
  intro h
  obtain ⟨c, cs, hcs⟩ := List.exists_cons_of_ne_nil
    (fun hnil => hkey.nonempty (String.toList_inj.mp hnil) : key.toList ≠ [])
  rw [hcs, List.cons_append] at h
  obtain ⟨rfl, -⟩ := List.cons.inj h
  exact hkey.notMem (c := '[') (by decide) (by simp [hcs])

theorem Spelling.colonCount_eq_zero {text p : String} (hkey : IsRoutingKey key)
    (h : Spelling key text) (htext : text = key ++ ":" ++ p) : colonCount key = 0 := by
  cases h with
  | bare =>
      have hlen := congrArg (fun s => s.toList.length) htext
      simp at hlen
  | port _ hzero => exact hzero
  | brackets =>
      have hlist := congrArg String.toList htext
      simp only [String.toList_append, List.append_assoc] at hlist
      exact absurd hlist.symm (hkey.append_ne _ _)
  | bracketsPort =>
      have hlist := congrArg String.toList htext
      simp only [String.toList_append, List.append_assoc] at hlist
      exact absurd hlist.symm (hkey.append_ne _ _)

theorem hasExplicitPort_name (name : String) {p : String}
    (hhost : host.toList = name.toList ++ ':' :: p.toList) (hne : name ≠ "")
    (hopen : '[' ∉ name.toList) (hname : ':' ∉ name.toList) (hp : IsPort p) :
    hasExplicitPort host = true := by
  have hstrip : stripChar '[' host = none := by
    cases hs : stripChar '[' host with
    | none => rfl
    | some rest =>
        have hhead := stripChar_eq_some_iff.mp hs
        rw [hhost] at hhead
        obtain ⟨c, cs, hcs⟩ := List.exists_cons_of_ne_nil
          (fun hnil => hne (String.toList_inj.mp hnil) : name.toList ≠ [])
        rw [hcs] at hhead hopen
        simp at hhead hopen
        exact absurd hhead.1.symm hopen.1
  have hone : colonCount host = 1 := by
    have hp0 : p.toList.count ':' = 0 :=
      List.count_eq_zero.mpr (hp.notMem (by decide) (by decide))
    have hn0 : name.toList.count ':' = 0 := List.count_eq_zero.mpr hname
    simp [colonCount, hhost, hp0, hn0]
  have hsome : (parseU16 p).isSome = true := hp
  simp [hasExplicitPort, hstrip, hone, splitOnce_append hhost hname, hsome]

theorem hasExplicitPort_brackets (inner : String) {p : String}
    (hhost : host.toList = '[' :: (inner.toList ++ ']' :: ':' :: p.toList))
    (hclose : ']' ∉ inner.toList) (hp : IsPort p) : hasExplicitPort host = true := by
  have hstrip : stripChar '[' host = some (inner ++ "]:" ++ p) := by
    simp [stripChar_eq_some_iff, hhost]
  have hsplit : splitOnce ']' (inner ++ "]:" ++ p) = some (inner, ":" ++ p) :=
    splitOnce_append (by simp) hclose
  have htail : stripChar ':' (":" ++ p) = some p := by
    simp [stripChar_eq_some_iff]
  have hsome : (parseU16 p).isSome = true := hp
  simp [hasExplicitPort, hstrip, hsplit, htail, hsome]

/-- `has_explicit_port` sees in the host as written every port that `normalize_dns` strips from
its lower case when a valid key is left. -/
theorem hasExplicitPort_of_stripped {p : String} (hp : IsPort p)
    (hok : routingKey m host = .ok key)
    (h : m.toLowercase host = key ++ ":" ++ p ∨ m.toLowercase host = "[" ++ key ++ "]:" ++ p) :
    hasExplicitPort host = true := by
  have hlower := m.toLowercase_of_isNarrow (isNarrow_of_routingKey hok)
  obtain ⟨hkey, hspell⟩ := routingKey_ok_iff.mp hok
  have hkept : ∀ {a : List Char} {c : Char}, a.map LowercaseMapping.lowerChar = key.toList →
      isValidKeyChar c = false → c.isAlpha = false → c ≠ kelvinSign → c ∉ a := by
    intro a c ha hc halpha hk
    apply notMem_of_map_lowerChar halpha hk
    rw [ha]
    exact hkey.notMem hc
  obtain h | h := h
  · have htext : host.toList.map LowercaseMapping.lowerChar = key.toList ++ ':' :: p.toList := by
      simp [← hlower, h]
    obtain ⟨name, rest, hhost, hname, hrest⟩ :=
      map_lowerChar_append (by decide) (by decide) htext
    rw [map_lowerChar_port hp hrest] at hhost
    apply hasExplicitPort_name (.ofList name) (by simpa using hhost) ?_ ?_ ?_ hp
    · intro hnil
      have hempty : name = [] := by simpa using congrArg String.toList hnil
      subst hempty
      exact hkey.nonempty (String.toList_inj.mp hname.symm)
    · rw [String.toList_ofList]
      exact hkept hname (by decide) (by decide) (by decide)
    · rw [String.toList_ofList]
      apply notMem_of_map_lowerChar (by decide) (by decide)
      rw [hname]
      exact colonCount_eq_zero_iff.mp (hspell.colonCount_eq_zero hkey h)
  · have htext : host.toList.map LowercaseMapping.lowerChar =
        [] ++ '[' :: (key.toList ++ ']' :: ([] ++ ':' :: p.toList)) := by
      simp [← hlower, h]
    obtain ⟨before, rest, hhost, hbefore, hrest⟩ :=
      map_lowerChar_append (by decide) (by decide) htext
    obtain ⟨inner, tail, rfl, hinner, htail⟩ := map_lowerChar_append (by decide) (by decide) hrest
    obtain ⟨gap, rest, rfl, hgap, hrest⟩ := map_lowerChar_append (by decide) (by decide) htail
    rw [List.map_eq_nil_iff] at hbefore hgap
    rw [map_lowerChar_port hp hrest, hbefore, hgap] at hhost
    apply hasExplicitPort_brackets (.ofList inner) (by simpa using hhost) ?_ hp
    rw [String.toList_ofList]
    exact hkept hinner (by decide) (by decide) (by decide)

/-- The host of an operator is its key, up to case and brackets. -/
theorem toLowercase_of_specHostKey (h : specHostKey m host = .ok key) :
    m.toLowercase host = key ∨ m.toLowercase host = "[" ++ key ++ "]" := by
  have hok := specHostKey_ok h
  have hport : ¬hasExplicitPort host = true := by
    intro hport
    rw [specHostKey, if_pos hport] at h
    cases h
  have hspell := (routingKey_ok_iff.mp hok).2
  generalize htext : m.toLowercase host = text at hspell
  cases hspell with
  | bare => exact .inl rfl
  | brackets => exact .inr rfl
  | port p _ hp => exact absurd (hasExplicitPort_of_stripped hp hok (.inl htext)) hport
  | bracketsPort p _ hp => exact absurd (hasExplicitPort_of_stripped hp hok (.inr htext)) hport

/-- An operator's host is never shortened, two hosts with one key differ in case and brackets
only, and every port that the normalisation would strip is refused. -/
theorem operator_host_not_shortened (m : LowercaseMapping) :
    (∀ h k, specHostKey m h = .ok k →
      m.toLowercase h = k ∨ m.toLowercase h = "[" ++ k ++ "]") ∧
    (∀ h h' k, specHostKey m h = .ok k → specHostKey m h' = .ok k →
      m.toLowercase h = m.toLowercase h' ∨
      m.toLowercase h = "[" ++ m.toLowercase h' ++ "]" ∨
      m.toLowercase h' = "[" ++ m.toLowercase h ++ "]") ∧
    (∀ h k p, IsPort p → routingKey m h = .ok k →
      (m.toLowercase h = k ++ ":" ++ p ∨ m.toLowercase h = "[" ++ k ++ "]:" ++ p) →
      hasExplicitPort h = true ∧ specHostKey m h = .error (.explicitPort h)) := by
  refine ⟨fun h k hk => toLowercase_of_specHostKey hk, ?_, ?_⟩
  · intro h h' k hk hk'
    obtain hl | hl := toLowercase_of_specHostKey hk <;>
      obtain hl' | hl' := toLowercase_of_specHostKey hk' <;> simp [hl, hl']
  · intro h k p hp hok hstrip
    have hport := hasExplicitPort_of_stripped hp hok hstrip
    exact ⟨hport, by rw [specHostKey, if_pos hport]⟩

theorem operator_host_not_shortened_samples :
    (LowercaseMapping.narrow.toLowercase "[::AB]" = "::ab" ∨
      LowercaseMapping.narrow.toLowercase "[::AB]" = "[" ++ "::ab" ++ "]") ∧
    hasExplicitPort "A.local:8443" = true := by
  obtain ⟨hkey, -, hport⟩ := operator_host_not_shortened .narrow
  have hspec : specHostKey .narrow "[::AB]" = .ok "::ab" := by decide +kernel
  have hok : routingKey .narrow "A.local:8443" = .ok "a.local" := by decide +kernel
  have hlower : LowercaseMapping.narrow.toLowercase "A.local:8443" = "a.local" ++ ":" ++ "8443" := by
    decide +kernel
  exact ⟨hkey _ _ hspec, (hport _ _ "8443" (by rfl) hok (.inl hlower)).1⟩

/-! ### The doors of a listener -/

theorem isPlain_empty : LowercaseMapping.IsPlain "" := by simp [LowercaseMapping.IsPlain]

theorem isPlain_colon : LowercaseMapping.IsPlain ":" := by simp [LowercaseMapping.IsPlain]

theorem isPlain_open : LowercaseMapping.IsPlain "[" := by simp [LowercaseMapping.IsPlain]

theorem isPlain_close : LowercaseMapping.IsPlain "]" := by simp [LowercaseMapping.IsPlain]

theorem isPlain_closeColon : LowercaseMapping.IsPlain "]:" := by simp [LowercaseMapping.IsPlain]

theorem isPlain_port {p : String} (hp : IsPort p) : LowercaseMapping.IsPlain p := by
  intro c hc
  refine ⟨hp.ascii c hc, ?_⟩
  obtain hdigit | rfl := hp.chars c hc
  · exact (Bool.or_eq_false_iff.mp (isAlpha_of_isDigit hdigit)).1
  · decide

theorem colonCount_toLowercase (hnarrow : ∀ c ∈ host.toList, LowercaseMapping.IsNarrow c) :
    colonCount (m.toLowercase host) = colonCount host := by
  rw [colonCount, m.toLowercase_of_isNarrow hnarrow, List.count, List.countP_map]
  apply List.countP_congr
  intro c _
  have hiff := LowercaseMapping.lowerChar_eq_iff (c := c) (d := ':') (by decide) (by decide)
  simpa using hiff

/-- A name without a port, and with one. -/
theorem normalizeDns_name {n p : String} (hnarrow : ∀ c ∈ n.toList, LowercaseMapping.IsNarrow c)
    (hn : ':' ∉ n.toList) (hp : IsPort p) :
    normalizeDns m n = m.toLowercase n ∧ normalizeDns m (n ++ ":" ++ p) = m.toLowercase n := by
  have hlower : ':' ∉ (m.toLowercase n).toList := by
    rwa [mem_toLowercase_iff hnarrow (by decide) (by decide)]
  refine ⟨normalizeDns_of_notMem hlower, ?_⟩
  apply normalizeDns_of_port ?_ hlower hp
  have hlower' := m.toLowercase_between isPlain_empty hnarrow
    (isPlain_colon.append (isPlain_port hp))
  simpa [String.append_assoc] using hlower'

/-- An IPv6 literal without brackets, with brackets, and with brackets and a port. -/
theorem normalizeDns_v6 {v p : String} (hnarrow : ∀ c ∈ v.toList, LowercaseMapping.IsNarrow c)
    (hopen : '[' ∉ v.toList) (hclose : ']' ∉ v.toList) (hcolons : 2 ≤ colonCount v)
    (hp : IsPort p) :
    normalizeDns m v = m.toLowercase v ∧
      normalizeDns m ("[" ++ v ++ "]") = m.toLowercase v ∧
      normalizeDns m ("[" ++ v ++ "]:" ++ p) = m.toLowercase v := by
  have hopen' : '[' ∉ (m.toLowercase v).toList := by
    rwa [mem_toLowercase_iff hnarrow (by decide) (by decide)]
  have hclose' : ']' ∉ (m.toLowercase v).toList := by
    rwa [mem_toLowercase_iff hnarrow (by decide) (by decide)]
  have hcolons' : 1 < colonCount (m.toLowercase v) := by
    rwa [colonCount_toLowercase hnarrow]
  refine ⟨normalizeDns_of_colons hopen' hcolons', ?_, ?_⟩
  · apply normalizeDns_of_brackets "" ?_ hclose' (by omega) (.inl rfl)
    simpa using m.toLowercase_between isPlain_open hnarrow isPlain_close
  · apply normalizeDns_of_brackets (":" ++ p) ?_ hclose' (by omega) (.inr ⟨p, rfl, hp⟩)
    have hlower := m.toLowercase_between isPlain_open hnarrow
      (isPlain_closeColon.append (isPlain_port hp))
    rw [← String.append_assoc] at hlower
    rw [hlower]
    simp [← String.toList_inj]

/-- Texts around a host that do not change its normal form do not change its key. A host with a
wide character has none with or without them. -/
theorem toOption_routingKey_between {a s b : String}
    (h : (∀ c ∈ s.toList, LowercaseMapping.IsNarrow c) →
      normalizeDns m (a ++ s ++ b) = normalizeDns m s) :
    (routingKey m (a ++ s ++ b)).toOption = (routingKey m s).toOption := by
  by_cases hnarrow : ∀ c ∈ s.toList, LowercaseMapping.IsNarrow c
  · rw [routingKey, routingKey, h hnarrow]
  · have hnone : ∀ t : String, s.toList ⊆ t.toList → (routingKey m t).toOption = none := by
      intro t hsub
      cases ht : routingKey m t with
      | error e => rfl
      | ok k => exact absurd (fun c hc => isNarrow_of_routingKey ht c (hsub hc)) hnarrow
    rw [hnone s (List.Subset.refl _), hnone (a ++ s ++ b)]
    intro c hc
    simp [hc]

theorem toOption_routingKey_name (m : LowercaseMapping) {n p : String} (hn : ':' ∉ n.toList)
    (hp : IsPort p) :
    (routingKey m (n ++ ":" ++ p)).toOption = (routingKey m n).toOption := by
  have htext : n ++ ":" ++ p = "" ++ n ++ (":" ++ p) := by simp [String.append_assoc]
  rw [htext]
  apply toOption_routingKey_between
  intro hnarrow
  obtain ⟨hbare, hport⟩ := normalizeDns_name (m := m) hnarrow hn hp
  rw [← htext, hbare, hport]

theorem toOption_routingKey_v6 (m : LowercaseMapping) {v p : String} (hopen : '[' ∉ v.toList)
    (hclose : ']' ∉ v.toList) (hcolons : 2 ≤ colonCount v) (hp : IsPort p) :
    (routingKey m ("[" ++ v ++ "]")).toOption = (routingKey m v).toOption ∧
      (routingKey m ("[" ++ v ++ "]:" ++ p)).toOption = (routingKey m v).toOption := by
  constructor
  · apply toOption_routingKey_between
    intro hnarrow
    obtain ⟨hbare, hbrackets, -⟩ := normalizeDns_v6 (m := m) hnarrow hopen hclose hcolons hp
    rw [hbare, hbrackets]
  · rw [String.append_assoc]
    apply toOption_routingKey_between
    intro hnarrow
    obtain ⟨hbare, -, hport⟩ := normalizeDns_v6 (m := m) hnarrow hopen hclose hcolons hp
    rw [← String.append_assoc, hbare, hport]

/-- What flowscope reads off a request head: the host, and the port that it split off. -/
structure Authority where
  host : String
  port : Option Nat

/-- Why a door has no routing key for a connection. -/
inductive DoorError where
  /-- Unroutable TLS SNI. -/
  | sni (reason : HostError)
  /-- Unroutable request target. -/
  | target (reason : String)
  /-- Unroutable `Host` or authority. -/
  | host (reason : HostError)
  /-- The HTTP/2 request has no `:authority`. -/
  | noAuthority
  /-- Unroutable HTTP/2 `:authority`. -/
  | authority (reason : HostError)
  deriving DecidableEq, Repr

/-- What `read_tls_sni` makes of the SNI of a ClientHello. -/
def sniRoutingKey (m : LowercaseMapping) (sni : Option String) :
    Except DoorError (Option String) :=
  match sni with
  | some sni => ((routingKey m sni).mapError .sni).map some
  | none => .ok none

/-- `routing_key_from_head`, given what `RequestHead::authority` returns. -/
def routingKeyFromHead (m : LowercaseMapping) (authority : Except String Authority) :
    Except DoorError String :=
  match authority with
  | .ok authority => (routingKey m authority.host).mapError .host
  | .error reason => .error (.target reason)

/-- `h2_routing_key`, given what `StreamHead::authority` returns. -/
def h2RoutingKey (m : LowercaseMapping) (authority : Option String) : Except DoorError String :=
  match authority with
  | some authority => (routingKey m authority).mapError .authority
  | none => .error .noAuthority

/-- The ways in which a door may see the host `name`. -/
inductive Writes (name : String) : String → Prop where
  | bare : Writes name name
  | port (p : String) (h : ':' ∉ name.toList) (hp : IsPort p) : Writes name (name ++ ":" ++ p)
  | brackets (hopen : '[' ∉ name.toList) (hclose : ']' ∉ name.toList)
      (hcolons : 2 ≤ colonCount name) : Writes name ("[" ++ name ++ "]")
  | bracketsPort (p : String) (hopen : '[' ∉ name.toList) (hclose : ']' ∉ name.toList)
      (hcolons : 2 ≤ colonCount name) (hp : IsPort p) : Writes name ("[" ++ name ++ "]:" ++ p)

theorem Writes.toOption_routingKey {name text : String} (h : Writes name text) :
    (routingKey m text).toOption = (routingKey m name).toOption := by
  cases h with
  | bare => rfl
  | port p hname hp => exact toOption_routingKey_name m hname hp
  | brackets hopen hclose hcolons =>
      exact (toOption_routingKey_v6 m hopen hclose hcolons (p := "80") rfl).1
  | bracketsPort p hopen hclose hcolons hp =>
      exact (toOption_routingKey_v6 m hopen hclose hcolons hp).2

theorem toOption_mapError {ε ε' α : Type} (f : ε → ε') (x : Except ε α) :
    (x.mapError f).toOption = x.toOption := by
  cases x <;> rfl

/-- The spellings of one host have one key or none, and so SNI, `Host` and `:authority` mint
one key for it. -/
theorem doors_agree_on_key (m : LowercaseMapping) :
    (∀ n p, ':' ∉ n.toList → IsPort p →
      (routingKey m (n ++ ":" ++ p)).toOption = (routingKey m n).toOption) ∧
    (∀ v p, '[' ∉ v.toList → ']' ∉ v.toList → 2 ≤ colonCount v → IsPort p →
      (routingKey m ("[" ++ v ++ "]")).toOption = (routingKey m v).toOption ∧
      (routingKey m ("[" ++ v ++ "]:" ++ p)).toOption = (routingKey m v).toOption) ∧
    (∀ name host authority port, Writes name host → Writes name authority →
      (sniRoutingKey m (some name)).toOption =
        (routingKeyFromHead m (.ok ⟨host, port⟩)).toOption.map some ∧
      (h2RoutingKey m (some authority)).toOption =
        (routingKeyFromHead m (.ok ⟨host, port⟩)).toOption) := by
  refine ⟨fun n p => toOption_routingKey_name m,
    fun v p => toOption_routingKey_v6 m, ?_⟩
  intro name host authority port hhost hauthority
  have hsni : (sniRoutingKey m (some name)).toOption = (routingKey m name).toOption.map some := by
    rw [sniRoutingKey]
    cases routingKey m name <;> rfl
  constructor
  · rw [hsni, routingKeyFromHead, toOption_mapError, hhost.toOption_routingKey]
  · rw [h2RoutingKey, routingKeyFromHead, toOption_mapError, toOption_mapError,
      hhost.toOption_routingKey, hauthority.toOption_routingKey]

theorem doors_agree_on_key_browser :
    (routingKey .narrow ("API.Local" ++ ":" ++ "8080")).toOption =
        (routingKey .narrow "API.Local").toOption ∧
      (routingKey .narrow ("[" ++ "2001:DB8::1" ++ "]:" ++ "443")).toOption =
        (routingKey .narrow "2001:DB8::1").toOption ∧
      (h2RoutingKey .narrow (some ("API.Local" ++ ":" ++ "8080"))).toOption =
        (routingKeyFromHead .narrow (.ok ⟨"API.Local", some 8080⟩)).toOption := by
  obtain ⟨hname, hv6, hdoors⟩ := doors_agree_on_key .narrow
  refine ⟨hname _ _ (by decide) (by rfl), ?_, ?_⟩
  · exact (hv6 "2001:DB8::1" "443" (by decide) (by decide) (by decide) (by rfl)).2
  · exact (hdoors "API.Local" _ _ _ .bare (.port "8080" (by decide) (by rfl))).2

end Key

end ZenohBridge
