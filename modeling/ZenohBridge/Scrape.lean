import Mathlib.Data.List.Sort
import Mathlib.Data.Prod.Lex
import Mathlib.Data.String.Basic
import ZenohBridge.CannedResponses
import ZenohBridge.ConnectionClose
import ZenohBridge.Foundation.Exposition
import ZenohBridge.Metrics

/-!
# What a scrape reads

`render_prometheus` writes the registry in the text exposition format, sorted by service, with
the label values escaped. `route` answers the three paths of the health server, and
`handle_conn` writes the answer with the length of its body.

Whatever the services are called, a reader of the format finds in the text exactly the values
of the registry, each series once; with the ledger of a run it finds the sums over the
connections of that run.

## Implementation notes

The entries of a hash map come in any order, which the sort makes irrelevant. The text is
written for values of one moment; `Scraped` lets each of them be loaded at a moment of its own.
The request path is a parameter.
-/

namespace ZenohBridge

open Execution

namespace Metrics

/-- `str::replace` of a character. -/
def replaceChar (c : Char) (replacement text : String) : String :=
  String.ofList (text.toList.flatMap fun d => if d = c then replacement.toList else [d])

/-- `escape_label`. -/
def escapeLabel (v : String) : String :=
  replaceChar '\n' "\\n" (replaceChar '"' "\\\"" (replaceChar '\\' "\\\\" v))

/-- `metric_line`. -/
def metricLine (name service : String) (extra : Option (String × String)) (value : UInt64) :
    String :=
  match extra with
  | some (k, v) => name ++ "\x7bservice=\"" ++ escapeLabel service ++ "\"," ++ k ++ "=\"" ++
      escapeLabel v ++ "\"\x7d " ++ toString value.toNat ++ "\n"
  | none => name ++ "\x7bservice=\"" ++ escapeLabel service ++ "\"\x7d " ++
      toString value.toNat ++ "\n"

/-- The two comment lines of a metric. -/
def header (name help kind : String) : String :=
  "# HELP " ++ name ++ " " ++ help ++ "\n" ++ ("# TYPE " ++ name ++ " " ++ kind ++ "\n")

/-- The entries of a map, sorted by key. -/
def sortByKey {κ ν ι : Type*} [LinearOrder ι] (f : κ → ι) (m : AList fun _ : κ => ν) :
    List (κ × ν) :=
  (m.entries.map fun e => (e.1, e.2)).insertionSort fun a b => f a.1 ≤ f b.1

/-- The order of the keys of the gRPC completions. -/
def grpcOrder (key : String × UInt32) : Lex (String × Nat) := toLex (key.1, key.2.toNat)

/-- The counters of each service, sorted. -/
def sortedServices (m : Metrics) : List (String × Counters) := sortByKey id m.services

/-- The gRPC completions, sorted. -/
def sortedGrpc (m : Metrics) : List ((String × UInt32) × UInt64) :=
  sortByKey grpcOrder m.grpcStatuses

/-- `render_prometheus`. -/
def renderPrometheus (m : Metrics) : String :=
  let services := m.sortedServices
  let ready := if m.ready then 1 else 0
  let grpc := m.sortedGrpc
  header "zbridge_ready" "Whether the bridge is ready to serve (1) or not (0)." "gauge" ++
    ("zbridge_ready " ++ toString ready ++ "\n") ++
  header "zbridge_active_connections" "Currently open connections." "gauge" ++
    String.join (services.map fun s =>
      metricLine "zbridge_active_connections" s.1 none s.2.active) ++
  header "zbridge_connections_total" "Connections ever opened." "counter" ++
    String.join (services.map fun s =>
      metricLine "zbridge_connections_total" s.1 none s.2.total) ++
  header "zbridge_bytes_total" "Bytes relayed, by direction." "counter" ++
    String.join (services.map fun s =>
      metricLine "zbridge_bytes_total" s.1 (some ("direction", "up")) s.2.bytesUp ++
      metricLine "zbridge_bytes_total" s.1 (some ("direction", "down")) s.2.bytesDown) ++
  header "zbridge_connections_outcome_total" "Connections by how they ended." "counter" ++
    String.join (services.map fun s =>
      metricLine "zbridge_connections_outcome_total" s.1 (some ("outcome", "completed"))
        s.2.completed ++
      metricLine "zbridge_connections_outcome_total" s.1 (some ("outcome", "reset")) s.2.reset ++
      metricLine "zbridge_connections_outcome_total" s.1 (some ("outcome", "failed"))
        s.2.failed) ++
  if grpc.isEmpty then ""
  else
    header "zbridge_grpc_status_total" "Terminated gRPC calls by grpc-status code." "counter" ++
      String.join (grpc.map fun e =>
        metricLine "zbridge_grpc_status_total" e.1.1 (some ("code", toString e.1.2.toNat)) e.2)

/-- The name of the metric in which a counter is shown. -/
def seriesName : Field → String
  | .active => "zbridge_active_connections"
  | .total => "zbridge_connections_total"
  | .bytesUp | .bytesDown => "zbridge_bytes_total"
  | .completed | .reset | .failed => "zbridge_connections_outcome_total"

/-- The label beside the service. -/
def seriesExtra : Field → Option (String × String)
  | .active | .total => none
  | .bytesUp => some ("direction", "up")
  | .bytesDown => some ("direction", "down")
  | .completed => some ("outcome", "completed")
  | .reset => some ("outcome", "reset")
  | .failed => some ("outcome", "failed")

/-- A sample of a metric that has the service as its first label. -/
def serviceSample (name service : String) (extra : Option (String × String)) (value : Nat) :
    Exposition.Sample :=
  ⟨name.toList, ("service".toList, service.toList) ::
    extra.toList.map fun l => (l.1.toList, l.2.toList), value⟩

def counterSample (service : String) (field : Field) (value : Nat) : Exposition.Sample :=
  serviceSample (seriesName field) service (seriesExtra field) value

def grpcSample (call : String × UInt32) (value : Nat) : Exposition.Sample :=
  serviceSample "zbridge_grpc_status_total" call.1 (some ("code", toString call.2.toNat)) value

def readySample (ready : Bool) : Exposition.Sample :=
  ⟨"zbridge_ready".toList, [], if ready then 1 else 0⟩

def familyOf (name help kind : String) (samples : List Exposition.Sample) : Exposition.Family :=
  ⟨name.toList, help.toList, kind.toList, samples⟩

/-- The samples of some counters, service by service. -/
def counterSamples (m : Metrics) (fields : List Field) : List Exposition.Sample :=
  m.sortedServices.flatMap fun s =>
    fields.map fun field => counterSample s.1 field (s.2.get field).toNat

/-- The families that the registry shows. -/
def families (m : Metrics) : List Exposition.Family :=
  [familyOf "zbridge_ready" "Whether the bridge is ready to serve (1) or not (0)." "gauge"
      [readySample m.ready],
    familyOf "zbridge_active_connections" "Currently open connections." "gauge"
      (m.counterSamples [.active]),
    familyOf "zbridge_connections_total" "Connections ever opened." "counter"
      (m.counterSamples [.total]),
    familyOf "zbridge_bytes_total" "Bytes relayed, by direction." "counter"
      (m.counterSamples [.bytesUp, .bytesDown]),
    familyOf "zbridge_connections_outcome_total" "Connections by how they ended." "counter"
      (m.counterSamples [.completed, .reset, .failed])] ++
  if m.sortedGrpc = [] then []
  else [familyOf "zbridge_grpc_status_total" "Terminated gRPC calls by grpc-status code."
    "counter" (m.sortedGrpc.map fun e => grpcSample e.1 e.2.toNat)]

section Text

open Exposition

theorem flatMap_replace (c : Char) (replacement : String) (text : String) :
    (replaceChar c replacement text).toList =
      text.toList.flatMap fun d => if d = c then replacement.toList else [d] := by
  rw [replaceChar, String.toList_ofList]

/-- The three replacements in their order escape each character on its own. -/
theorem escapeLabel_toList (v : String) : (escapeLabel v).toList = escape v.toList := by
  rw [escapeLabel, flatMap_replace, flatMap_replace, flatMap_replace, List.flatMap_assoc,
    List.flatMap_assoc, escape]
  congr 1
  funext c
  by_cases hslash : c = '\\'
  · subst hslash
    rfl
  by_cases hquote : c = '"'
  · subst hquote
    rfl
  by_cases hline : c = '\n'
  · subst hline
    rfl
  rw [escapeChar_of_plain hslash hquote hline]
  simp [hslash, hquote, hline]

theorem metricLine_toList (name service : String) (extra : Option (String × String))
    (value : UInt64) :
    (metricLine name service extra value).toList =
      (serviceSample name service extra value.toNat).line ++ ['\n'] := by
  cases extra with
  | none =>
      simp [metricLine, serviceSample, Sample.line, writeLabels, writeLabel, escapeLabel_toList]
  | some label =>
      simp [metricLine, serviceSample, Sample.line, writeLabels, writeLabel, escapeLabel_toList]

theorem header_toList (name help kind : String) :
    (header name help kind).toList =
      (helpMark ++ (name.toList ++ ' ' :: help.toList)) ++ '\n' ::
        ((typeMark ++ (name.toList ++ ' ' :: kind.toList)) ++ ['\n']) := by
  simp [header, helpMark, typeMark]

/-- A family as the code writes it: its header and the texts of its samples. -/
theorem writeLines_familyOf (name help kind : String) (samples : List Exposition.Sample) :
    writeLines (familyOf name help kind samples).lines =
      (header name help kind).toList ++ writeLines (samples.map Sample.line) := by
  rw [header_toList]
  simp [writeLines, familyOf, Family.lines]

theorem writeLines_nil : writeLines [] = [] := rfl

theorem writeLines_append (lines lines' : List Text) :
    writeLines (lines ++ lines') = writeLines lines ++ writeLines lines' :=
  List.flatMap_append

/-- The lines of some counters, service by service. -/
theorem join_counterLines (m : Metrics) (fields : List Field) (text : String × Counters → String)
    (h : ∀ s, (text s).toList = writeLines
      (fields.map fun field => (counterSample s.1 field (s.2.get field).toNat).line)) :
    (String.join (m.sortedServices.map text)).toList =
      writeLines ((m.counterSamples fields).map Sample.line) := by
  rw [String.toList_join, counterSamples, writeLines, List.map_flatMap, List.flatMap_assoc,
    List.flatMap_map]
  congr 1
  funext s
  rw [h s, writeLines, List.map_map]
  rfl

/-- A metric of which each service has one sample or more. -/
theorem writeLines_counters (m : Metrics) (name help kind : String) (fields : List Field)
    (text : String × Counters → String)
    (h : ∀ s, (text s).toList = writeLines
      (fields.map fun field => (counterSample s.1 field (s.2.get field).toNat).line)) :
    writeLines (familyOf name help kind (m.counterSamples fields)).lines =
      (header name help kind).toList ++ (String.join (m.sortedServices.map text)).toList := by
  rw [writeLines_familyOf, join_counterLines m fields text h]

theorem writeLines_grpc (m : Metrics) (name help kind : String) :
    writeLines (familyOf name help kind
        (m.sortedGrpc.map fun e => grpcSample e.1 e.2.toNat)).lines =
      (header name help kind).toList ++ (String.join (m.sortedGrpc.map fun e =>
        metricLine "zbridge_grpc_status_total" e.1.1 (some ("code", toString e.1.2.toNat))
          e.2)).toList := by
  have hline : ∀ e : (String × UInt32) × UInt64, (metricLine "zbridge_grpc_status_total" e.1.1
      (some ("code", toString e.1.2.toNat)) e.2).toList =
        (grpcSample e.1 e.2.toNat).line ++ ['\n'] := fun e => metricLine_toList _ _ _ _
  rw [writeLines_familyOf, String.toList_join, List.flatMap_map, List.map_map, writeLines,
    List.flatMap_map]
  simp only [hline, Function.comp_apply]

theorem writeLines_single (line : Text) : writeLines [line] = line ++ ['\n'] := by
  simp [writeLines]

theorem readySample_line (ready : Bool) :
    writeLines ([readySample ready].map Sample.line) =
      ("zbridge_ready " ++ toString (if ready then 1 else 0) ++ "\n").toList := by
  cases ready <;> rfl

/-- What the code writes is the text of the families of the registry. -/
theorem renderPrometheus_toList (m : Metrics) :
    m.renderPrometheus.toList = write m.families := by
  have hactive := writeLines_counters m "zbridge_active_connections"
    "Currently open connections." "gauge" [.active]
    (fun s => metricLine "zbridge_active_connections" s.1 none s.2.active)
    fun s => by rw [metricLine_toList]; exact (writeLines_single _).symm
  have htotal := writeLines_counters m "zbridge_connections_total"
    "Connections ever opened." "counter" [.total]
    (fun s => metricLine "zbridge_connections_total" s.1 none s.2.total)
    fun s => by rw [metricLine_toList]; exact (writeLines_single _).symm
  have hbytes := writeLines_counters m "zbridge_bytes_total" "Bytes relayed, by direction."
    "counter" [.bytesUp, .bytesDown]
    (fun s => metricLine "zbridge_bytes_total" s.1 (some ("direction", "up")) s.2.bytesUp ++
      metricLine "zbridge_bytes_total" s.1 (some ("direction", "down")) s.2.bytesDown)
    fun s => by
      rw [String.toList_append, metricLine_toList, metricLine_toList]
      simp [writeLines, counterSample, seriesName, seriesExtra, Counters.get]
  have houtcomes := writeLines_counters m "zbridge_connections_outcome_total"
    "Connections by how they ended." "counter" [.completed, .reset, .failed]
    (fun s => metricLine "zbridge_connections_outcome_total" s.1 (some ("outcome", "completed"))
        s.2.completed ++
      metricLine "zbridge_connections_outcome_total" s.1 (some ("outcome", "reset")) s.2.reset ++
      metricLine "zbridge_connections_outcome_total" s.1 (some ("outcome", "failed")) s.2.failed)
    fun s => by
      rw [String.toList_append, String.toList_append, metricLine_toList, metricLine_toList,
        metricLine_toList]
      simp [writeLines, counterSample, seriesName, seriesExtra, Counters.get]
  have hgrpc := writeLines_grpc m "zbridge_grpc_status_total"
    "Terminated gRPC calls by grpc-status code." "counter"
  have hready := writeLines_familyOf "zbridge_ready"
    "Whether the bridge is ready to serve (1) or not (0)." "gauge" [readySample m.ready]
  rw [readySample_line] at hready
  rw [renderPrometheus, write, families, List.flatMap_append, writeLines_append]
  by_cases hnone : m.sortedGrpc = []
  · simp only [List.flatMap_cons, List.flatMap_nil, writeLines_append, hready, hactive, htotal,
      hbytes, houtcomes, hnone, String.toList_append, List.append_assoc, List.isEmpty_nil, if_true,
      writeLines_nil, List.append_nil, String.toList_empty]
  · have hempty : m.sortedGrpc.isEmpty = false := by simpa using hnone
    simp only [List.flatMap_cons, List.flatMap_nil, writeLines_append, hready, hactive, htotal,
      hbytes, houtcomes, hgrpc, hnone, hempty, String.toList_append, List.append_assoc, if_false,
      Bool.false_eq_true, List.append_nil]

/-- The names of metrics and labels, and the texts of the comments, are fixed. -/
theorem isName_of_all {name : String} (hne : name.toList ≠ [])
    (hall : name.toList.all isNameChar = true) : IsName name.toList :=
  ⟨hne, List.all_eq_true.mp hall⟩

theorem serviceSample_isWritable {name : String} (hname : IsName name.toList) (service : String)
    {extra : Option (String × String)}
    (hextra : ∀ label ∈ extra, label.1.toList.all isNameChar = true) (value : Nat) :
    (serviceSample name service extra value).IsWritable := by
  refine ⟨hname, ?_⟩
  intro label hlabel
  obtain rfl | hlabel := List.mem_cons.mp hlabel
  · exact List.all_eq_true.mp (show "service".toList.all isNameChar = true by decide)
  · obtain ⟨l, hl, rfl⟩ := List.mem_map.mp hlabel
    exact List.all_eq_true.mp (hextra l (Option.mem_toList.mp hl))

theorem isName_seriesName (field : Field) : IsName (seriesName field).toList := by
  cases field <;> exact isName_of_all (by decide) (by decide)

theorem counterSample_isWritable (service : String) (field : Field) (value : Nat) :
    (counterSample service field value).IsWritable := by
  apply serviceSample_isWritable (isName_seriesName field)
  intro label hlabel
  cases field <;> cases hlabel <;> decide

theorem grpcSample_isWritable (call : String × UInt32) (value : Nat) :
    (grpcSample call value).IsWritable := by
  apply serviceSample_isWritable (isName_of_all (by decide) (by decide))
  intro label hlabel
  cases hlabel
  exact show "code".toList.all isNameChar = true by decide

theorem familyOf_isWritable {name help kind : String} {samples : List Exposition.Sample}
    (hname : IsName name.toList) (hhelp : help.toList.all (· ≠ '\n') = true)
    (hkind : kind.toList.all (· ≠ '\n') = true)
    (h : ∀ s ∈ samples, s.name = name.toList ∧ s.IsWritable) :
    (familyOf name help kind samples).IsWritable := by
  have hline : ∀ text : String, text.toList.all (· ≠ '\n') = true → '\n' ∉ text.toList := by
    intro text htext hmem
    simpa using List.all_eq_true.mp htext _ hmem
  exact ⟨hname, hline _ hhelp, hline _ hkind, h⟩

theorem mem_counterSamples {m : Metrics} {fields : List Field} {s : Exposition.Sample} :
    s ∈ m.counterSamples fields ↔ ∃ e ∈ m.sortedServices, ∃ field ∈ fields,
      s = counterSample e.1 field (e.2.get field).toNat := by
  simp only [counterSamples, List.mem_flatMap, List.mem_map, eq_comm]

theorem counterFamily_isWritable (m : Metrics) {name help kind : String} {fields : List Field}
    (hname : ∀ field ∈ fields, seriesName field = name) (hword : IsName name.toList)
    (hhelp : help.toList.all (· ≠ '\n') = true) (hkind : kind.toList.all (· ≠ '\n') = true) :
    (familyOf name help kind (m.counterSamples fields)).IsWritable := by
  apply familyOf_isWritable hword hhelp hkind
  intro s hs
  obtain ⟨e, -, field, hfield, rfl⟩ := mem_counterSamples.mp hs
  exact ⟨congrArg String.toList (hname field hfield), counterSample_isWritable _ _ _⟩

theorem families_isWritable (m : Metrics) : ∀ f ∈ m.families, f.IsWritable := by
  intro f hf
  obtain hf | hf := List.mem_append.mp hf
  · simp only [List.mem_cons, List.not_mem_nil, or_false] at hf
    obtain rfl | rfl | rfl | rfl | rfl := hf
    · apply familyOf_isWritable (isName_of_all (by decide) (by decide)) (by decide) (by decide)
      intro s hs
      rw [List.mem_singleton.mp hs]
      exact ⟨rfl, isName_of_all (by decide) (by decide), fun _ hl => nomatch hl⟩
    · exact counterFamily_isWritable m (by decide) (isName_seriesName .active) (by decide)
        (by decide)
    · exact counterFamily_isWritable m (by decide) (isName_seriesName .total) (by decide)
        (by decide)
    · exact counterFamily_isWritable m (by decide) (isName_seriesName .bytesUp) (by decide)
        (by decide)
    · exact counterFamily_isWritable m (by decide) (isName_seriesName .completed) (by decide)
        (by decide)
  · split at hf
    · cases hf
    · rw [List.mem_singleton.mp hf]
      apply familyOf_isWritable (isName_of_all (by decide) (by decide)) (by decide) (by decide)
      intro s hs
      obtain ⟨e, -, rfl⟩ := List.mem_map.mp hs
      exact ⟨rfl, grpcSample_isWritable _ _⟩

/-- The text is read back as the families of the registry. -/
theorem read_renderPrometheus (m : Metrics) :
    Exposition.read m.renderPrometheus.toList = some m.families := by
  rw [renderPrometheus_toList, read_write m.families_isWritable]

end Text

section Sorting

variable {κ ν ι : Type*} [LinearOrder ι] {f : κ → ι}
  {m m' : AList fun _ : κ => ν}

theorem mem_sortByKey [DecidableEq κ] {k : κ} {v : ν} :
    (k, v) ∈ sortByKey f m ↔ m.lookup k = some v := by
  rw [sortByKey, (List.perm_insertionSort _ _).mem_iff, ← Option.mem_def, AList.mem_lookup_iff]
  constructor
  · intro h
    obtain ⟨⟨k', v'⟩, he, heq⟩ := List.mem_map.mp h
    cases heq
    exact he
  · exact fun h => List.mem_map.mpr ⟨⟨k, v⟩, h, rfl⟩

/-- A key comes once. -/
theorem nodup_keys_sortByKey : ((sortByKey f m).map Prod.fst).Nodup := by
  rw [sortByKey, ((List.perm_insertionSort _ _).map _).nodup_iff, List.map_map]
  exact m.keys_nodup

theorem pairwise_sortByKey : (sortByKey f m).Pairwise fun a b => f a.1 ≤ f b.1 := by
  have htotal : Std.Total fun a b : κ × ν => f a.1 ≤ f b.1 := ⟨fun a b => le_total _ _⟩
  have htrans : IsTrans (κ × ν) fun a b => f a.1 ≤ f b.1 := ⟨fun _ _ _ => le_trans⟩
  exact List.pairwise_insertionSort _ _

/-- The order in which a map yields its entries does not show after the sort. -/
theorem sortByKey_congr [DecidableEq κ] (hf : Function.Injective f)
    (h : ∀ k, m.lookup k = m'.lookup k) :
    sortByKey f m = sortByKey f m' := by
  have hperm : (sortByKey f m).Perm (sortByKey f m') := by
    rw [List.perm_ext_iff_of_nodup nodup_keys_sortByKey.of_map nodup_keys_sortByKey.of_map]
    rintro ⟨k, v⟩
    rw [mem_sortByKey, mem_sortByKey, h]
  apply hperm.eq_of_pairwise _ pairwise_sortByKey pairwise_sortByKey
  intro a b ha hb hab hba
  obtain ⟨k, v⟩ := a
  obtain ⟨k', v'⟩ := b
  obtain rfl : k = k' := hf (le_antisymm hab hba)
  have hv := (mem_sortByKey.mp ha).symm.trans (h k ▸ mem_sortByKey.mp hb)
  rw [Option.some.inj hv]

end Sorting

theorem grpcOrder_injective : Function.Injective grpcOrder := by
  rintro ⟨service, code⟩ ⟨service', code'⟩ h
  obtain ⟨rfl, hcode⟩ := Prod.mk.inj (toLex.injective h)
  exact Prod.ext rfl (UInt32.toNat_inj.mp hcode)

section Samples

open Exposition

variable {m m' : Metrics}

theorem mem_sortedServices {name : String} {c : Counters} :
    (name, c) ∈ m.sortedServices ↔ m.services.lookup name = some c := mem_sortByKey

theorem mem_sortedGrpc {call : String × UInt32} {n : UInt64} :
    (call, n) ∈ m.sortedGrpc ↔ m.grpcStatuses.lookup call = some n := mem_sortByKey

/-- The samples of a scrape: the readiness, every counter of every service that has an entry,
and the gRPC counts. -/
theorem mem_samples {s : Exposition.Sample} :
    s ∈ m.families.flatMap Family.samples ↔
      s = readySample m.ready ∨
      (∃ name c field, m.services.lookup name = some c ∧
        s = counterSample name field (c.get field).toNat) ∨
      ∃ call n, m.grpcStatuses.lookup call = some n ∧ s = grpcSample call n.toNat := by
  have hgrpc : s ∈ (if m.sortedGrpc = [] then []
      else [familyOf "zbridge_grpc_status_total" "Terminated gRPC calls by grpc-status code."
        "counter" (m.sortedGrpc.map fun e => grpcSample e.1 e.2.toNat)]).flatMap
          Family.samples ↔
      ∃ call n, m.grpcStatuses.lookup call = some n ∧ s = grpcSample call n.toNat := by
    have hmem : s ∈ m.sortedGrpc.map (fun e => grpcSample e.1 e.2.toNat) ↔
        ∃ call n, m.grpcStatuses.lookup call = some n ∧ s = grpcSample call n.toNat := by
      simp only [List.mem_map, Prod.exists, mem_sortedGrpc, eq_comm]
    split
    · next hnone => simpa [hnone] using hmem
    · simpa [familyOf] using hmem
  rw [families, List.flatMap_append, List.mem_append, hgrpc]
  simp only [List.flatMap_cons, List.flatMap_nil, List.append_nil, List.mem_append, familyOf,
    mem_counterSamples, Prod.exists, mem_sortedServices]
  constructor
  · rintro ((h | h | h | h | h) | h)
    · exact .inl (List.mem_singleton.mp h)
    · obtain ⟨name, c, hc, field, -, rfl⟩ := h
      exact .inr (.inl ⟨name, c, field, hc, rfl⟩)
    · obtain ⟨name, c, hc, field, -, rfl⟩ := h
      exact .inr (.inl ⟨name, c, field, hc, rfl⟩)
    · obtain ⟨name, c, hc, field, -, rfl⟩ := h
      exact .inr (.inl ⟨name, c, field, hc, rfl⟩)
    · obtain ⟨name, c, hc, field, -, rfl⟩ := h
      exact .inr (.inl ⟨name, c, field, hc, rfl⟩)
    · exact .inr (.inr h)
  · rintro (rfl | ⟨name, c, field, hc, rfl⟩ | h)
    · exact .inl (.inl (List.mem_singleton.mpr rfl))
    · refine .inl (.inr ?_)
      cases field
      · exact .inl ⟨name, c, hc, _, by simp, rfl⟩
      · exact .inr (.inl ⟨name, c, hc, _, by simp, rfl⟩)
      · exact .inr (.inr (.inl ⟨name, c, hc, .bytesUp, by simp, rfl⟩))
      · exact .inr (.inr (.inl ⟨name, c, hc, .bytesDown, by simp, rfl⟩))
      · exact .inr (.inr (.inr ⟨name, c, hc, .completed, by simp, rfl⟩))
      · exact .inr (.inr (.inr ⟨name, c, hc, .reset, by simp, rfl⟩))
      · exact .inr (.inr (.inr ⟨name, c, hc, .failed, by simp, rfl⟩))
    · exact .inr h

/-- Two counters of one metric are told apart by their labels. -/
theorem seriesExtra_inj {field field' : Field} (hname : seriesName field = seriesName field')
    (hextra : (seriesExtra field).toList.map (fun l => (l.1.toList, l.2.toList)) =
      (seriesExtra field').toList.map fun l => (l.1.toList, l.2.toList)) : field = field' := by
  cases field <;> cases field' <;> first
    | rfl
    | exact absurd hname (by decide)
    | exact absurd hextra (by decide)

theorem toString_code_inj {code code' : UInt32}
    (h : toString code.toNat = toString code'.toNat) : code = code' := by
  have hdigits : Nat.toDigits 10 code.toNat = Nat.toDigits 10 code'.toNat := by
    simpa using congrArg String.toList h
  have hread := congrArg (fun l => Nat.ofDigitChars 10 l 0) hdigits
  simp only [Nat.ofDigitChars_ten_toDigits] at hread
  exact UInt32.toNat_inj.mp hread

theorem nodup_counterLabels (m : Metrics) (name : String) {fields : List Field}
    (hnodup : fields.Nodup) (hname : ∀ field ∈ fields, seriesName field = name) :
    ((m.counterSamples fields).map Sample.labels).Nodup := by
  have hpairs : (m.counterSamples fields).map Sample.labels =
      ((m.sortedServices.map Prod.fst) ×ˢ fields).map fun p =>
        ("service".toList, p.1.toList) ::
          (seriesExtra p.2).toList.map fun l => (l.1.toList, l.2.toList) := by
    simp only [counterSamples, SProd.sprod, List.product, List.map_flatMap, List.flatMap_map,
      List.map_map]
    rfl
  rw [hpairs]
  apply List.Nodup.map_on
  · rintro ⟨service, field⟩ hp ⟨service', field'⟩ hp' h
    obtain ⟨hservice, hextra⟩ := List.cons.inj h
    have hfield := hname field (List.pair_mem_product.mp hp).2
    have hfield' := hname field' (List.pair_mem_product.mp hp').2
    refine Prod.ext (String.toList_injective (Prod.mk.inj hservice).2) ?_
    exact seriesExtra_inj (hfield.trans hfield'.symm) hextra
  · exact nodup_keys_sortByKey.product hnodup

theorem nodup_grpcLabels (m : Metrics) :
    ((m.sortedGrpc.map fun e => grpcSample e.1 e.2.toNat).map Sample.labels).Nodup := by
  have hkeys : (m.sortedGrpc.map fun e => grpcSample e.1 e.2.toNat).map Sample.labels =
      (m.sortedGrpc.map Prod.fst).map fun call =>
        [("service".toList, call.1.toList), ("code".toList, (toString call.2.toNat).toList)] := by
    rw [List.map_map, List.map_map]
    rfl
  rw [hkeys]
  apply List.Nodup.map_on _ nodup_keys_sortByKey
  rintro ⟨service, code⟩ - ⟨service', code'⟩ - h
  simp only [List.cons.injEq, Prod.mk.injEq, true_and, and_true] at h
  exact Prod.ext (String.toList_injective h.1) (toString_code_inj (String.toList_injective h.2))

theorem nodup_families (m : Metrics) :
    ((m.families.flatMap Family.samples).map fun s => (s.name, s.labels)).Nodup := by
  apply nodup_series _ m.families_isWritable
  · intro f hf
    obtain hf | hf := List.mem_append.mp hf
    · simp only [List.mem_cons, List.not_mem_nil, or_false] at hf
      obtain rfl | rfl | rfl | rfl | rfl := hf
      · exact List.nodup_singleton _
      · exact nodup_counterLabels m (seriesName .active) (by decide) (by decide)
      · exact nodup_counterLabels m (seriesName .total) (by decide) (by decide)
      · exact nodup_counterLabels m (seriesName .bytesUp) (by decide) (by decide)
      · exact nodup_counterLabels m (seriesName .completed) (by decide) (by decide)
    · split at hf
      · cases hf
      · rw [List.mem_singleton.mp hf]
        exact nodup_grpcLabels m
  · have hnames : (["zbridge_ready", "zbridge_active_connections", "zbridge_connections_total",
        "zbridge_bytes_total", "zbridge_connections_outcome_total",
        "zbridge_grpc_status_total"].map String.toList).Nodup := by decide
    rw [families, List.map_append]
    split
    · rw [List.map_nil, List.append_nil]
      exact hnames.sublist (List.prefix_append _ ["zbridge_grpc_status_total".toList]).sublist
    · exact hnames

/-- What is read of the text shows no series twice. -/
theorem nodup_samples (m : Metrics) :
    ∃ families, Exposition.read m.renderPrometheus.toList = some families ∧
      ((families.flatMap Family.samples).map fun s => (s.name, s.labels)).Nodup :=
  ⟨m.families, read_renderPrometheus m, nodup_families m⟩

theorem counterSample_inj {name name' : String} {field field' : Field} {n n' : Nat}
    (h : counterSample name field n = counterSample name' field' n') :
    name = name' ∧ field = field' ∧ n = n' := by
  have hname : seriesName field = seriesName field' :=
    String.toList_injective (congrArg Sample.name h)
  obtain ⟨hservice, hextra⟩ := List.cons.inj (congrArg Sample.labels h)
  exact ⟨String.toList_injective (Prod.mk.inj hservice).2, seriesExtra_inj hname hextra,
    congrArg Sample.value h⟩

theorem grpcSample_inj {call call' : String × UInt32} {n n' : Nat}
    (h : grpcSample call n = grpcSample call' n') : call = call' ∧ n = n' := by
  have hlabels := congrArg Sample.labels h
  simp only [grpcSample, serviceSample, Option.toList_some, List.map_cons, List.map_nil,
    List.cons.injEq, Prod.mk.injEq, true_and, and_true] at hlabels
  exact ⟨Prod.ext (String.toList_injective hlabels.1)
    (toString_code_inj (String.toList_injective hlabels.2)), congrArg Sample.value h⟩

/-- The metrics are told apart by their names. -/
theorem counterSample_ne_grpcSample {name : String} {field : Field} {n n' : Nat}
    {call : String × UInt32} : counterSample name field n ≠ grpcSample call n' := by
  intro h
  have hname : seriesName field = "zbridge_grpc_status_total" :=
    String.toList_injective (congrArg Sample.name h)
  cases field <;> exact absurd hname (by decide)

theorem counterSample_ne_readySample {name : String} {field : Field} {n : Nat} {ready : Bool} :
    counterSample name field n ≠ readySample ready := by
  intro h
  have hname : seriesName field = "zbridge_ready" :=
    String.toList_injective (congrArg Sample.name h)
  cases field <;> exact absurd hname (by decide)

theorem grpcSample_ne_readySample {call : String × UInt32} {n : Nat} {ready : Bool} :
    grpcSample call n ≠ readySample ready := fun h =>
  absurd (String.toList_injective (congrArg Sample.name h)) (by decide)

theorem readySample_inj {ready ready' : Bool} (h : readySample ready = readySample ready') :
    ready = ready' := by
  have hvalue := congrArg Sample.value h
  revert hvalue
  cases ready <;> cases ready' <;> decide

theorem Counters.ext_get {c c' : Counters} (h : ∀ field, c.get field = c'.get field) : c = c' := by
  obtain ⟨active, total, bytesUp, bytesDown, completed, reset, failed⟩ := c
  have hactive := h .active
  have htotal := h .total
  have hup := h .bytesUp
  have hdown := h .bytesDown
  have hcompleted := h .completed
  have hreset := h .reset
  have hfailed := h .failed
  simp only [Counters.get] at *
  subst hactive htotal hup hdown hcompleted hreset hfailed
  rfl

/-- A sample of a counter is that of the service and the field it names. -/
theorem counterSample_mem {name : String} {field : Field} {n : Nat} :
    counterSample name field n ∈ m.families.flatMap Family.samples ↔
      ∃ c, m.services.lookup name = some c ∧ n = (c.get field).toNat := by
  rw [mem_samples]
  constructor
  · rintro (h | ⟨name', c, field', hc, h⟩ | ⟨call, n', -, h⟩)
    · exact absurd h counterSample_ne_readySample
    · obtain ⟨rfl, rfl, rfl⟩ := counterSample_inj h
      exact ⟨c, hc, rfl⟩
    · exact absurd h counterSample_ne_grpcSample
  · rintro ⟨c, hc, rfl⟩
    exact .inr (.inl ⟨name, c, field, hc, rfl⟩)

theorem grpcSample_mem {call : String × UInt32} {n : Nat} :
    grpcSample call n ∈ m.families.flatMap Family.samples ↔
      ∃ v, m.grpcStatuses.lookup call = some v ∧ n = v.toNat := by
  rw [mem_samples]
  constructor
  · rintro (h | ⟨name, c, field, -, h⟩ | ⟨call', v, hv, h⟩)
    · exact absurd h grpcSample_ne_readySample
    · exact absurd h.symm counterSample_ne_grpcSample
    · obtain ⟨rfl, rfl⟩ := grpcSample_inj h
      exact ⟨v, hv, rfl⟩
  · rintro ⟨v, hv, rfl⟩
    exact .inr (.inr ⟨call, v, hv, rfl⟩)

theorem readySample_mem {ready : Bool} :
    readySample ready ∈ m.families.flatMap Family.samples ↔ ready = m.ready := by
  rw [mem_samples]
  constructor
  · rintro (h | ⟨name, c, field, -, h⟩ | ⟨call, v, -, h⟩)
    · exact readySample_inj h
    · exact absurd h.symm counterSample_ne_readySample
    · exact absurd h.symm grpcSample_ne_readySample
  · rintro rfl
    exact .inl rfl

/-- The samples determine what a map holds. -/
theorem lookup_services_of_families (h : m.families = m'.families) {name : String} {c : Counters}
    (hc : m.services.lookup name = some c) : m'.services.lookup name = some c := by
  have hfield : ∀ field, ∃ c', m'.services.lookup name = some c' ∧
      (c.get field).toNat = (c'.get field).toNat := by
    intro field
    rw [← counterSample_mem, ← h]
    exact counterSample_mem.mpr ⟨c, hc, rfl⟩
  obtain ⟨c', hc', -⟩ := hfield .active
  rw [hc', Option.some.injEq]
  apply Counters.ext_get
  intro field
  obtain ⟨c'', hc'', hvalue⟩ := hfield field
  rw [hc', Option.some.injEq] at hc''
  exact (UInt64.toNat_inj.mp (hc'' ▸ hvalue)).symm

theorem lookup_grpc_of_families (h : m.families = m'.families) {call : String × UInt32}
    {n : UInt64} (hn : m.grpcStatuses.lookup call = some n) :
    m'.grpcStatuses.lookup call = some n := by
  have hmem : grpcSample call n.toNat ∈ m'.families.flatMap Family.samples :=
    h ▸ grpcSample_mem.mpr ⟨n, hn, rfl⟩
  obtain ⟨v, hv, hvalue⟩ := grpcSample_mem.mp hmem
  rw [hv, UInt64.toNat_inj.mp hvalue]

/-- Two registries have one text exactly when they hold the same values: the order in which the
maps yield their entries does not show, and everything else does, whatever the services are
called. -/
theorem renderPrometheus_eq_iff (m m' : Metrics) :
    m.renderPrometheus = m'.renderPrometheus ↔
      (∀ name, m.services.lookup name = m'.services.lookup name) ∧
      (∀ call, m.grpcStatuses.lookup call = m'.grpcStatuses.lookup call) ∧
      m.ready = m'.ready := by
  constructor
  · intro h
    have hread := read_renderPrometheus m
    rw [h, read_renderPrometheus m', Option.some.injEq] at hread
    refine ⟨fun name => ?_, fun call => ?_, ?_⟩
    · apply Option.ext
      exact fun c => ⟨lookup_services_of_families hread.symm, lookup_services_of_families hread⟩
    · apply Option.ext
      exact fun n => ⟨lookup_grpc_of_families hread.symm, lookup_grpc_of_families hread⟩
    · rw [← readySample_mem, hread, readySample_mem]
  · rintro ⟨hservices, hgrpc, hready⟩
    have hs : m.sortedServices = m'.sortedServices :=
      sortByKey_congr Function.injective_id hservices
    have hg : m.sortedGrpc = m'.sortedGrpc := sortByKey_congr grpcOrder_injective hgrpc
    rw [renderPrometheus, renderPrometheus, hs, hg, hready]

end Samples

section Runs

open Exposition

/-- The states that a part of a run goes through. -/
def Passes (before : Run) (during : List Action) (u : Run) : Prop :=
  ∃ n, exec Run.step before (during.take n) = some u

/-- What `render_prometheus` has loaded: the entries when it begins, and every value at some
moment of its own while the connections go on. -/
structure Scraped (before : Run) (during : List Action) (m : Metrics) : Prop where
  entries : ∀ name, name ∈ m.services ↔ name ∈ before.metrics.services
  counters : ∀ name c, m.services.lookup name = some c → ∀ field, ∃ u,
    Passes before during u ∧ c.get field = (u.metrics.countersOf name).get field
  grpc : ∃ u, Passes before during u ∧ m.grpcStatuses = u.metrics.grpcStatuses
  ready : ∃ u, Passes before during u ∧ m.ready = u.metrics.ready

/-- The samples that a scrape during a run may show. -/
inductive Reported (earlier : List Action) (before : Run) (during : List Action) :
    Exposition.Sample → Prop
  | ready {u : Run} (passed : Passes before during u) :
      Reported earlier before during (readySample u.metrics.ready)
  /-- The modulus is that of the counters. -/
  | counter {u : Run} {name : String} (field : Field) (passed : Passes before during u)
      (named : ∃ a ∈ earlier, a.names = some name) :
      Reported earlier before during (counterSample name field (u.sum name field % 2 ^ 64))
  | grpc {u : Run} {call : String × UInt32} (passed : Passes before during u)
      (made : call ∈ u.grpcCalls) :
      Reported earlier before during (grpcSample call (u.grpcCalls.count call % 2 ^ 64))

variable {earlier during : List Action} {before after u : Run} {m : Metrics}

/-- A scrape while nothing happens. -/
theorem scraped_of_still (before : Run) (during : List Action) :
    Scraped before during before.metrics := by
  have hnow : Passes before during before := ⟨0, rfl⟩
  refine ⟨fun name => Iff.rfl, ?_, ⟨before, hnow, rfl⟩, ⟨before, hnow, rfl⟩⟩
  intro name c hc field
  exact ⟨before, hnow, by rw [countersOf, hc]; rfl⟩

theorem Passes.ledger (hearlier : exec Run.step Run.start earlier = some before)
    (h : Passes before during u) : Run.Ledger u := by
  obtain ⟨n, hn⟩ := h
  exact (Run.ledger_exec (Run.ledger_exec Run.ledger_start hearlier).1 hn).1

/-- The counters that only grow lie between those at the begin and at the end. -/
theorem Passes.sum_le (hduring : exec Run.step before during = some after)
    (h : Passes before during u) {field : Field} (hfield : field ≠ .active) (service : String) :
    before.sum service field ≤ u.sum service field ∧
      u.sum service field ≤ after.sum service field := by
  obtain ⟨n, hn⟩ := h
  refine ⟨Run.sum_le_exec hfield hn service, ?_⟩
  rw [← List.take_append_drop n during, exec_append, hn] at hduring
  exact Run.sum_le_exec hfield hduring service

/-- A value that was loaded from a counter is the sum over the guards at that moment. -/
theorem Passes.load (hearlier : exec Run.step Run.start earlier = some before)
    (h : Passes before during u) (name : String) (field : Field) :
    ((u.metrics.countersOf name).get field).toNat = u.sum name field % 2 ^ 64 := by
  rw [(h.ledger hearlier).counters, UInt64.toNat_ofNat']

/-- What a scraper reads, whatever the services are called and whatever goes on meanwhile: the
sums over the connections, of every service that was named, and of no other. -/
theorem scrape_reports_run (hearlier : exec Run.step Run.start earlier = some before)
    (hduring : exec Run.step before during = some after) (hm : Scraped before during m) :
    ∃ families, Exposition.read m.renderPrometheus.toList = some families ∧
      (∀ s ∈ families.flatMap Family.samples, Reported earlier before during s) ∧
      ∀ name, (∃ a ∈ earlier, a.names = some name) → ∀ field, ∃ u, Passes before during u ∧
        counterSample name field (u.sum name field % 2 ^ 64) ∈
          families.flatMap Family.samples ∧
        (field ≠ .active → before.sum name field ≤ u.sum name field ∧
          u.sum name field ≤ after.sum name field) := by
  have hnamed : ∀ name, name ∈ before.metrics.services ↔ ∃ a ∈ earlier, a.names = some name := by
    intro name
    rw [(Run.ledger_exec Run.ledger_start hearlier).2 name]
    simp [Run.start, new]
  refine ⟨m.families, read_renderPrometheus m, ?_, ?_⟩
  · intro s hs
    obtain rfl | ⟨name, c, field, hc, rfl⟩ | ⟨call, n, hn, rfl⟩ := mem_samples.mp hs
    · obtain ⟨u, hu, hready⟩ := hm.ready
      exact hready ▸ .ready hu
    · obtain ⟨u, hu, hvalue⟩ := hm.counters name c hc field
      rw [hvalue, hu.load hearlier]
      apply Reported.counter field hu
      rw [← hnamed, ← hm.entries, ← AList.lookup_isSome, hc]
      rfl
    · obtain ⟨u, hu, hgrpc⟩ := hm.grpc
      rw [hgrpc, (hu.ledger hearlier).grpc] at hn
      split at hn
      · cases hn
      · next hcount =>
          cases hn
          rw [UInt64.toNat_ofNat']
          exact .grpc hu (List.count_pos_iff.mp (Nat.pos_of_ne_zero hcount))
  · intro name hname field
    obtain ⟨c, hc⟩ := Option.isSome_iff_exists.mp
      (AList.lookup_isSome.mpr ((hm.entries name).mpr ((hnamed name).mpr hname)))
    obtain ⟨u, hu, hvalue⟩ := hm.counters name c hc field
    refine ⟨u, hu, mem_samples.mpr (.inr (.inl ⟨name, c, field, hc, ?_⟩)), ?_⟩
    · rw [hvalue, hu.load hearlier]
    · exact fun hfield => hu.sum_le hduring hfield name

/-- A connection to a service with a quote in its name, scraped while it sends. -/
theorem scrape_reports_quotedRun : ∃ before after families,
    exec Run.step Run.start [.connStart "a\"b", .connCounted 0, .addUp 0 5] = some before ∧
      exec Run.step before [.addUp 0 3] = some after ∧
      Exposition.read before.metrics.renderPrometheus.toList = some families ∧
      ∃ n, 5 ≤ n ∧ n ≤ 8 ∧
        counterSample "a\"b" .bytesUp n ∈ families.flatMap Family.samples := by
  obtain ⟨before, hbefore⟩ : ∃ before, exec Run.step Run.start
      [.connStart "a\"b", .connCounted 0, .addUp 0 5] = some before := ⟨_, rfl⟩
  cases hbefore
  obtain ⟨families, hread, -, hall⟩ := @scrape_reports_run
    [.connStart "a\"b", .connCounted 0, .addUp 0 5] [.addUp 0 3] _ _ _ rfl rfl
    (scraped_of_still _ _)
  obtain ⟨u, -, hmem, hbetween⟩ := hall "a\"b" ⟨_, List.mem_cons_self, rfl⟩ .bytesUp
  obtain ⟨hlo, hhi⟩ := hbetween (by decide)
  have hlo : 5 ≤ u.sum "a\"b" .bytesUp := hlo
  have hhi : u.sum "a\"b" .bytesUp ≤ 8 := hhi
  rw [Nat.mod_eq_of_lt (by omega)] at hmem
  exact ⟨_, _, families, rfl, rfl, hread, _, hlo, hhi, hmem⟩

end Runs

section HealthServer

/-- `route`: the status, the type and the body for a path. -/
def route (path : String) (m : Metrics) : String × String × String :=
  let path := String.ofList (path.toList.takeWhile (· ≠ '?'))
  if path = "/healthz" then ("200 OK", "text/plain", "ok\n")
  else if path = "/readyz" then
    if m.ready then ("200 OK", "text/plain", "ready\n")
    else ("503 Service Unavailable", "text/plain", "not ready\n")
  else if path = "/metrics" then ("200 OK", "text/plain; version=0.0.4", m.renderPrometheus)
  else ("404 Not Found", "text/plain", "not found\n")

/-- What `handle_conn` writes for a path. -/
def healthResponse (path : String) (m : Metrics) : Bytes :=
  let (status, ctype, body) := route path m
  asBytes "HTTP/1.1 " ++ asBytes status ++ asBytes "\r\ncontent-type: " ++ asBytes ctype ++
    asBytes "\r\ncontent-length: " ++ decimal (asBytes body).length ++
    asBytes "\r\nconnection: close\r\n\r\n" ++ asBytes body

variable {path : String} {m : Metrics} {status ctype body : String}

/-- The lines of an answer. -/
def healthLines (status ctype body : String) : List Bytes :=
  [asBytes "HTTP/1.1 " ++ asBytes status, asBytes "content-type: " ++ asBytes ctype,
    asBytes "content-length: " ++ decimal (asBytes body).length, asBytes "connection: close"]

/-- The fields of an answer. -/
def healthFields (ctype body : String) : List (Bytes × Bytes) :=
  [(asBytes "content-type", asBytes ctype),
    (asBytes "content-length", decimal (asBytes body).length),
    (asBytes "connection", asBytes "close")]

theorem healthResponse_eq (h : route path m = (status, ctype, body)) :
    healthResponse path m = headBytes (healthLines status ctype body) ++ asBytes body := by
  have htype : asBytes "\r\ncontent-type: " = [13, 10] ++ asBytes "content-type: " := by
    decide +kernel
  have hlength : asBytes "\r\ncontent-length: " = [13, 10] ++ asBytes "content-length: " := by
    decide +kernel
  have hend : asBytes "\r\nconnection: close\r\n\r\n" =
      [13, 10] ++ (asBytes "connection: close" ++ ([13, 10] ++ [13, 10])) := by
    decide +kernel
  simp only [healthResponse, h, headBytes, healthLines, htype, hlength, hend, List.flatMap_cons,
    List.flatMap_nil, List.append_assoc, List.nil_append]

/-- The statuses and the types of the answers. -/
theorem route_kinds (h : route path m = (status, ctype, body)) :
    (status = "200 OK" ∨ status = "503 Service Unavailable" ∨ status = "404 Not Found") ∧
      (ctype = "text/plain" ∨ ctype = "text/plain; version=0.0.4") := by
  simp only [route] at h
  split at h
  · cases h
    exact ⟨.inl rfl, .inl rfl⟩
  split at h
  · split at h
    · cases h
      exact ⟨.inl rfl, .inl rfl⟩
    · cases h
      exact ⟨.inr (.inl rfl), .inl rfl⟩
  split at h
  · cases h
    exact ⟨.inl rfl, .inr rfl⟩
  · cases h
    exact ⟨.inr (.inr rfl), .inl rfl⟩

theorem healthLines_ok (h : route path m = (status, ctype, body)) :
    ∀ l ∈ healthLines status ctype body, IsHeadLine l := by
  obtain ⟨hstatus, hctype⟩ := route_kinds h
  have hfirst : IsHeadLine (asBytes "HTTP/1.1 " ++ asBytes status) := by
    obtain rfl | rfl | rfl := hstatus <;> exact ⟨by decide +kernel, by decide +kernel⟩
  have htype : IsHeadLine (asBytes "content-type: " ++ asBytes ctype) := by
    obtain rfl | rfl := hctype <;> exact ⟨by decide +kernel, by decide +kernel⟩
  have hlength : IsHeadLine (asBytes "content-length: " ++ decimal (asBytes body).length) := by
    constructor
    · intro hempty
      exact decimal_ne_nil _ (List.append_eq_nil_iff.mp hempty).2
    · rw [List.mem_append, not_or]
      constructor
      · decide +kernel
      · intro hmem
        exact absurd (toNat_of_mem_decimal hmem).1 (by decide)
  simp only [healthLines, List.forall_mem_cons, List.not_mem_nil, false_implies, implies_true,
    and_true]
  exact ⟨hfirst, htype, hlength, by decide +kernel, by decide +kernel⟩

theorem healthLines_fields (h : route path m = (status, ctype, body)) :
    (healthLines status ctype body).tail.map field = healthFields ctype body := by
  have htype : field (asBytes "content-type: " ++ asBytes ctype) =
      (asBytes "content-type", asBytes ctype) := by
    obtain rfl | rfl := (route_kinds h).2 <;> decide +kernel
  have hlength : field (asBytes "content-length: " ++ decimal (asBytes body).length) =
      (asBytes "content-length", decimal (asBytes body).length) := by
    have hsplit : asBytes "content-length: " = asBytes "content-length" ++ [58, 32] := by
      decide +kernel
    have hname : (asBytes "content-length").map lowerByte = asBytes "content-length" := by
      decide +kernel
    have htrim : trimBlanks (32 :: decimal (asBytes body).length) =
        decimal (asBytes body).length := trimBlanks_eq fun b hb => isBlank_of_mem_decimal hb
    rw [hsplit, List.append_assoc, List.cons_append, field_append (by decide +kernel), hname]
    exact congrArg _ htrim
  have hclose : field (asBytes "connection: close") = (asBytes "connection", asBytes "close") := by
    decide +kernel
  simp only [healthLines, healthFields, List.tail_cons, List.map_cons, List.map_nil, htype,
    hlength, hclose]

/-- An answer delimits itself, and a reader has the body as it was rendered. -/
theorem readMessage_healthResponse (h : route path m = (status, ctype, body)) (next : Bytes) :
    readMessage (healthResponse path m ++ next) =
      some (⟨asBytes "HTTP/1.1 " ++ asBytes status, healthFields ctype body, asBytes body⟩,
        next) := by
  have hok := healthLines_ok h
  have hcut := cut_headBytes hok (asBytes body ++ next)
  have hlines := headLines_joinLines fun l hl => (hok l hl).noReturn
  have hnames : asBytes "content-type" ≠ asBytes "content-length" ∧
      asBytes "connection" ≠ asBytes "content-length" := by decide +kernel
  have hlength : fieldValues "content-length" (healthLines status ctype body).tail =
      [decimal (asBytes body).length] := by
    rw [fieldValues_eq, healthLines_fields h]
    simp only [healthFields, List.filterMap_cons, List.filterMap_nil, hnames.1, hnames.2,
      if_false, if_true]
  rw [healthResponse_eq h, List.append_assoc, ← healthLines_fields h]
  exact readMessage_of_cut hcut hlines hlength

/-- What a client of the health server reads, whatever the query of its path, the services and
the bytes that follow. Every answer delimits itself and has a UTF-8 text as its body. In that of
`/metrics` the families of the registry are read, `/readyz` is answered with 200 exactly when
the bridge is ready, and `/healthz` always. -/
theorem health_server_answers (path : String) (m : Metrics) (next : Bytes) :
    ∃ message text, readMessage (healthResponse path m ++ next) = some (message, next) ∧
      String.fromUTF8? ⟨message.body.toArray⟩ = some text ∧
      let before := String.ofList (path.toList.takeWhile (· ≠ '?'))
      let ok := asBytes "HTTP/1.1 200 OK"
      (before = "/metrics" → message.status = ok ∧ Exposition.read text.toList = some m.families) ∧
      (before = "/readyz" → (message.status = ok ↔ m.ready = true)) ∧
      (before = "/healthz" → message.status = ok) ∧
      (before ≠ "/metrics" ∧ before ≠ "/readyz" ∧ before ≠ "/healthz" →
        message.status = asBytes "HTTP/1.1 404 Not Found") := by
  obtain ⟨status, ctype, body, h⟩ : ∃ status ctype body, route path m = (status, ctype, body) :=
    ⟨_, _, _, rfl⟩
  refine ⟨_, body, readMessage_healthResponse h next,
    Utf8.fromUTF8?_eq_some_iff.mpr (asBytes_eq_encode body), ?_⟩
  have hok : asBytes "HTTP/1.1 " ++ asBytes "200 OK" = asBytes "HTTP/1.1 200 OK" := by
    decide +kernel
  have hbusy : asBytes "HTTP/1.1 " ++ asBytes "503 Service Unavailable" ≠
      asBytes "HTTP/1.1 200 OK" := by decide +kernel
  have hmissing : asBytes "HTTP/1.1 " ++ asBytes "404 Not Found" =
      asBytes "HTTP/1.1 404 Not Found" := by decide +kernel
  simp only [route] at h
  generalize String.ofList (path.toList.takeWhile (· ≠ '?')) = before at h ⊢
  split at h
  · next hpath =>
      cases h
      simp [hpath, hok]
  split at h
  · next hpath =>
      split at h
      · next hready =>
          cases h
          simp [hpath, hok, hready]
      · next hready =>
          cases h
          simp [hpath, hbusy, hready]
  split at h
  · next hpath =>
      cases h
      simp [hpath, hok, read_renderPrometheus]
  · next hhealth hready hmetrics =>
      cases h
      simp [hhealth, hready, hmetrics, hmissing]

end HealthServer

end Metrics

end ZenohBridge
