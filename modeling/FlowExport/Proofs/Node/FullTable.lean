/-
# Built for a full table

A node is refused when it is built if the longest messages it could ever write are longer than its
limit on messages.  Their length is computed from the capacity of the table and the widths of the
templates, before anything is observed (`templateMessageLength`, `dataMessageLength`).

The check is neither too strict nor too lax.  No message is longer than the length computed for its
kind (`length_contents_le`), and as every table can be filled (`FlowTable.exists_full`), there is
one that is exactly so long (`length_contents_full`).  So a node is built exactly if none of its
messages is ever lost for lack of room (`built_iff_alwaysWritten`).

That the limit itself is within bounds plays no part: with at most 255 flows of at most 24 octets
every message could announce its length (`Regular.messageLength_le`).
-/
import FlowExport.Proofs.Flow.FirstCome
import FlowExport.Proofs.Node.Start
import FlowExport.Proofs.Wire.Sizing
import Mathlib.Data.List.Nodup

namespace FlowExport

/-! ## 1. Full tables -/

/-- The address that ends in a number. -/
def Address.numbered (n : Nat) : Address :=
  ⟨List.replicate 15 0 ++ [UInt8.ofNat n], by simp⟩

theorem Address.numbered_inj {m n : Nat} (hm : m ≤ maxFlowCapacity) (hn : n ≤ maxFlowCapacity)
    (h : numbered m = numbered n) : m = n := by
  have hlast := List.append_cancel_left (congrArg Address.octets h)
  have hoctet : UInt8.ofNat m = UInt8.ofNat n := List.singleton_inj.mp hlast
  have hnat := congrArg UInt8.toNat hoctet
  rw [UInt8.toNat_ofNat', UInt8.toNat_ofNat'] at hnat
  rw [maxFlowCapacity] at hm hn
  omega

/-- One packet towards each of so many destinations. -/
def crowd (n : Nat) : List Observation :=
  (List.range n).map fun i => ⟨.numbered i, 1⟩

theorem length_destinationsOf_crowd {n : Nat} (h : n ≤ maxFlowCapacity) :
    (destinationsOf (crowd n)).length = n := by
  have hmap : (crowd n).map (·.destination) = (List.range n).map .numbered := by
    rw [crowd, List.map_map]
    rfl
  have hnodup : ((List.range n).map Address.numbered).Nodup := by
    refine List.Nodup.map_on (fun i hi j hj hij => ?_) List.nodup_range
    have hi := List.mem_range.mp hi
    have hj := List.mem_range.mp hj
    exact Address.numbered_inj (by omega) (by omega) hij
  have hperm : (destinationsOf (crowd n)).Perm ((List.range n).map .numbered) := by
    rw [destinationsOf, hmap, List.perm_ext_iff_of_nodup (nodup_eraseDups _) hnodup]
    exact fun _ => List.mem_eraseDups
  rw [hperm.length_eq, List.length_map, List.length_range]

namespace FlowTable

/-- Without a flush everything that was observed counts. -/
theorem sinceFlush_update (seen : List Observation) :
    sinceFlush (seen.map .update) = seen := by
  rw [sinceFlush, List.foldl_map]
  induction seen using List.reverseRecOn with
  | nil => rfl
  | append_singleton seen o ih =>
    rw [List.foldl_append, ih]
    rfl

/-- **Every table can be filled.** -/
theorem exists_full {t : FlowTable} (h : t.records = []) :
    ∃ seen : List Observation, (t.run (seen.map .update)).records.length = t.capacity := by
  refine ⟨crowd t.capacity, ?_⟩
  obtain ⟨-, hrecords⟩ := records_run h ((crowd t.capacity).map .update)
  rw [sinceFlush_update] at hrecords
  rw [hrecords, firstCome, List.length_map, List.length_take,
    length_destinationsOf_crowd t.capacity_le, Nat.min_self]

end FlowTable

/-! ## 2. What the messages hold -/

namespace LocalExport

open Draft (Contents)

/-- **What a message of a node's own holds.** -/
def contents (l : LocalExport) (counters : Counters) : Kind → Contents
  | .template => .definitions (⟨_, l.flows⟩ :: l.report.toList.map fun t => ⟨_, t⟩)
  | .data => .records
      ((if l.table.isEmpty then [] else [⟨_, l.flows, l.table.source⟩])
        ++ l.report.toList.map fun t => ⟨_, t, counters.source⟩)

/-- The length that is computed for the longest message of a kind. -/
def messageLength (l : LocalExport) (encoding : Encoding) : Kind → Nat
  | .template => l.templateMessageLength encoding
  | .data => l.dataMessageLength encoding

section Contents

variable (l : LocalExport) (counters : Counters) (encoding : Encoding)

theorem kind_contents (kind : Kind) : (l.contents counters kind).kind = kind := by
  cases kind <;> rfl

theorem write_eq_calls (kind : Kind) : l.write counters kind
    = Draft.fillAll ((l.contents counters kind).calls.map Draft.Call.step) := by
  cases kind with
  | template =>
    rw [write, writeTemplates, contents, Contents.calls, List.map_cons, List.map_cons,
      List.map_map, List.map_map]
    rfl
  | data =>
    rw [write, writeData, contents, Contents.calls, List.map_append, List.map_append,
      List.map_map, List.map_map, List.map_map]
    cases l.table.isEmpty <;> rfl

theorem honest_contents (kind : Kind) : (l.contents counters kind).Honest := by
  cases kind with
  | template => trivial
  | data =>
    intro set hset
    rcases List.mem_append.mp hset with hset | hset
    · split at hset
      · exact absurd hset List.not_mem_nil
      · rw [List.mem_singleton.mp hset]
        rfl
    · obtain ⟨t, -, rfl⟩ := List.mem_map.mp hset
      rfl

/-- The definitions always take the same room. -/
theorem length_definitions :
    (l.contents counters .template).length encoding = l.messageLength encoding .template := by
  simp only [contents, messageLength, templateMessageLength, Contents.length, List.map_cons,
    List.map_map]
  rfl

theorem length_records :
    (l.contents counters .data).length encoding = encoding.headerLength
      + ((if l.table.isEmpty then 0
          else encoding.setHeaderLength + l.table.records.length * l.flows.recordWidth)
        + (l.report.toList.map fun t => encoding.setHeaderLength + 1 * t.recordWidth).sum) := by
  simp only [contents, Contents.length, Encoding.dataMessageLength, total_eq_sum, List.map_append,
    List.map_map, List.sum_append]
  cases l.table.isEmpty <;> rfl

/-- **No message is longer than was computed.** -/
theorem length_contents_le (kind : Kind) :
    (l.contents counters kind).length encoding ≤ l.messageLength encoding kind := by
  cases kind with
  | template => exact Nat.le_of_eq (l.length_definitions counters encoding)
  | data =>
    have hrecords := l.recordsLength_le
    rw [length_records, messageLength, dataMessageLength_eq]
    split <;> omega

/-- **With a full table every message is as long as was computed.** -/
theorem length_contents_full (hfull : l.table.records.length = l.table.capacity) (kind : Kind) :
    (l.contents counters kind).length encoding = l.messageLength encoding kind := by
  cases kind with
  | template => exact l.length_definitions counters encoding
  | data =>
    have hne : l.table.isEmpty = false := by
      have hpos := l.table.capacity_pos
      rw [← hfull] at hpos
      rw [FlowTable.isEmpty, List.isEmpty_eq_false_iff]
      exact List.ne_nil_of_length_pos hpos
    rw [length_records, messageLength, dataMessageLength_eq, hne, hfull]
    rfl

end Contents

/-! ## 3. Exports as nodes have them -/

/-- What the counters add, if they are reported. -/
theorem sum_report_le {l : LocalExport} {f : Template Counters → Nat} {most : Nat}
    (h : ∀ t, l.report = some t → f t ≤ most) : (l.report.toList.map f).sum ≤ most := by
  cases hr : l.report with
  | none => exact Nat.zero_le _
  | some t => simpa using h t hr

/-- **An export as nodes have it**: its templates are those of flows and of counters, with ids that
the encoding can name. -/
structure Regular (encoding : Encoding) (l : LocalExport) : Prop where
  flows : ∃ compactDestination, l.flows.elements = flowElements compactDestination
  id_le : encoding = .compact → l.flows.id ≤ maxCompactId
  report : ∀ t, l.report = some t → t.id = reportTemplateId ∧ t.elements = reportElements

/-- A message of a node's own, as it is written into a buffer. -/
def message (l : LocalExport) (encoding : Encoding) (kind : Kind) (counters : Counters)
    (buffer : Buffer) (x : Exporter) (time : UInt32) : Except CodecError (List UInt8) :=
  (Draft.compose buffer x encoding kind time (l.write counters kind)).1

/-- **The message has so many octets**: it is written wherever there is room for them. -/
def MessageTakes (l : LocalExport) (encoding : Encoding) (kind : Kind) (length : Nat) : Prop :=
  ∀ (counters : Counters) (buffer : Buffer) (x : Exporter) (time : UInt32),
    length ≤ buffer.capacity →
      ∃ payload, l.message encoding kind counters buffer x time = .ok payload ∧
        payload.length = length

theorem length_of_message {l : LocalExport} {encoding : Encoding} {kind : Kind}
    {counters : Counters} {buffer : Buffer} {x : Exporter} {time : UInt32} {payload : List UInt8}
    (h : l.message encoding kind counters buffer x time = .ok payload) :
    payload.length = (l.contents counters kind).length encoding := by
  rw [message, write_eq_calls] at h
  have hkind := l.kind_contents counters kind
  generalize l.contents counters kind = c at h hkind ⊢
  subst hkind
  exact (Draft.sized_of_compose h).2.2.1

namespace Regular

variable {l : LocalExport} {encoding : Encoding} (h : l.Regular encoding)

include h

theorem withTable (table : FlowTable) : Regular encoding { l with table } :=
  ⟨h.flows, h.id_le, h.report⟩

theorem fitsOctets (counters : Counters) (kind : Kind) (he : encoding = .compact) :
    (l.contents counters kind).FitsOctets := by
  have hreport : ∀ t ∈ l.report.toList, t.id ≤ maxCompactId := by
    intro t ht
    rw [(h.report t (Option.mem_toList.mp ht)).1]
    decide
  cases kind with
  | template =>
    intro set hset
    rcases List.mem_cons.mp hset with rfl | hset
    · exact h.id_le he
    · obtain ⟨t, ht, rfl⟩ := List.mem_map.mp hset
      exact hreport t ht
  | data =>
    intro set hset
    rcases List.mem_append.mp hset with hset | hset
    · split at hset
      · exact absurd hset List.not_mem_nil
      · rw [List.mem_singleton.mp hset]
        exact ⟨h.id_le he, Nat.le_trans l.table.length_le l.table.capacity_le⟩
    · obtain ⟨t, ht, rfl⟩ := List.mem_map.mp hset
      exact ⟨hreport t ht, (by decide : 1 ≤ maxCompactCount)⟩

/-- The octets that a definition and a record of flows take. -/
theorem width_flows_le : l.flows.specifiersLength ≤ 16 ∧ l.flows.recordWidth ≤ 24 := by
  obtain ⟨compactDestination, hflows⟩ := h.flows
  rw [Template.specifiersLength, Template.specifiers, Template.recordWidth, hflows]
  cases compactDestination <;> decide

/-- The octets that the definition and the record of counters take. -/
theorem width_report {t : Template Counters} (ht : l.report = some t) :
    t.specifiersLength = 40 ∧ t.recordWidth = 20 := by
  rw [Template.specifiersLength, Template.specifiers, Template.recordWidth, (h.report t ht).2]
  decide

/-- **Every message could announce its length**, a full table and the counters included. -/
theorem messageLength_le (kind : Kind) : l.messageLength encoding kind ≤ maxLength := by
  have hheader : encoding.headerLength ≤ 16 := by cases encoding <;> decide
  have hset : encoding.setHeaderLength = 4 := by cases encoding <;> rfl
  have htemplate : encoding.templateSetHeaderLength ≤ 8 := by cases encoding <;> decide
  obtain ⟨hspecifiers, hwidth⟩ := h.width_flows_le
  rw [maxLength]
  cases kind with
  | template =>
    have hreport : (l.report.toList.map fun t =>
        encoding.templateSetHeaderLength + t.specifiersLength).sum
          ≤ encoding.templateSetHeaderLength + 40 := by
      refine sum_report_le fun t ht => ?_
      rw [(h.width_report ht).1]
    simp only [messageLength, templateMessageLength, Encoding.templateMessageLength, total_eq_sum,
      List.map_cons, List.map_map, List.sum_cons, Function.comp_def]
    omega
  | data =>
    have hreport : (l.report.toList.map fun t =>
        encoding.setHeaderLength + 1 * t.recordWidth).sum ≤ encoding.setHeaderLength + 1 * 20 := by
      refine sum_report_le fun t ht => ?_
      rw [(h.width_report ht).2]
    have hrecords : l.table.capacity * l.flows.recordWidth ≤ maxFlowCapacity * 24 :=
      Nat.mul_le_mul l.table.capacity_le hwidth
    rw [maxFlowCapacity] at hrecords
    rw [messageLength, dataMessageLength_eq]
    omega

/-- **A message is written exactly where its contents fit.** -/
theorem message_iff (kind : Kind) (counters : Counters) (buffer : Buffer) (x : Exporter)
    (time : UInt32) :
    (∃ payload, l.message encoding kind counters buffer x time = .ok payload) ↔
      (l.contents counters kind).length encoding ≤ buffer.capacity := by
  have hmax : (l.contents counters kind).length encoding ≤ maxLength :=
    Nat.le_trans (l.length_contents_le counters encoding kind) (h.messageLength_le kind)
  have hiff : (∃ bytes, (Draft.compose buffer x encoding (l.contents counters kind).kind time
      (Draft.fillAll ((l.contents counters kind).calls.map Draft.Call.step))).1 = .ok bytes) ↔ _ :=
    Draft.exists_compose_iff (l.honest_contents counters kind) (h.fitsOctets counters kind) hmax
  rwa [kind_contents, ← write_eq_calls] at hiff

/-- **With a full table every message has the octets that were computed**; definitions always
have. -/
theorem messageTakes (kind : Kind)
    (hkind : kind = .data → l.table.records.length = l.table.capacity) :
    l.MessageTakes encoding kind (l.messageLength encoding kind) := by
  intro counters buffer x time hroom
  have hlength : (l.contents counters kind).length encoding = l.messageLength encoding kind := by
    cases kind with
    | template => exact l.length_definitions counters encoding
    | data => exact l.length_contents_full counters encoding (hkind rfl) .data
  obtain ⟨payload, hp⟩ := (h.message_iff kind counters buffer x time).mpr (hlength ▸ hroom)
  exact ⟨payload, hp, (length_of_message hp).trans hlength⟩

end Regular

/-! ## 4. A node that runs -/

/-- The export after any observations. -/
def after (l : LocalExport) (seen : List Observation) : LocalExport :=
  { l with table := l.table.run (seen.map .update) }

/-- **No message is ever lost**: in buffers of so many octets those of either kind are written,
whatever was observed and whatever the counters say. -/
def AlwaysWritten (l : LocalExport) (encoding : Encoding) (capacity : Nat) : Prop :=
  ∀ (seen : List Observation) (counters : Counters) (kind : Kind) (buffer : Buffer) (x : Exporter)
    (time : UInt32), buffer.capacity = capacity →
      ∃ payload, (l.after seen).message encoding kind counters buffer x time = .ok payload

section Running

variable {l : LocalExport} {encoding : Encoding} (hempty : l.table.records = [])

include hempty

theorem capacity_after (seen : List Observation) :
    (l.after seen).table.capacity = l.table.capacity :=
  (FlowTable.records_run hempty _).1

/-- Observing changes what is counted, not how much can be. -/
theorem messageLength_after (seen : List Observation) (encoding : Encoding) (kind : Kind) :
    (l.after seen).messageLength encoding kind = l.messageLength encoding kind := by
  cases kind with
  | template => rfl
  | data =>
    rw [messageLength, messageLength, dataMessageLength_eq, dataMessageLength_eq,
      capacity_after hempty]
    rfl

/-- **All messages are written exactly if the longest of each kind fits**: it is written once the
table is full. -/
theorem Regular.alwaysWritten_iff (h : l.Regular encoding) (capacity : Nat) :
    l.AlwaysWritten encoding capacity ↔ ∀ kind, l.messageLength encoding kind ≤ capacity := by
  constructor
  · intro halways kind
    -- Short of a full table a message may fit a limit that is too small, so the table is filled.
    obtain ⟨seen, hfull⟩ := FlowTable.exists_full hempty
    obtain ⟨payload, hp⟩ := halways seen {} kind (.ofCapacity capacity) {} 0
      (Buffer.capacity_ofCapacity capacity)
    have hroom := ((h.withTable _).message_iff kind {} _ {} 0).mp ⟨payload, hp⟩
    rw [length_contents_full _ _ _ (hfull.trans (capacity_after hempty seen).symm),
      Buffer.capacity_ofCapacity] at hroom
    exact (messageLength_after hempty seen encoding kind).symm.trans_le hroom
  · rintro hroom seen counters kind buffer x time rfl
    refine ((h.withTable _).message_iff kind counters buffer x time).mpr ?_
    exact Nat.le_trans (length_contents_le _ counters encoding kind)
      ((messageLength_after hempty seen encoding kind).trans_le (hroom kind))

end Running

end LocalExport

/-! ## 5. The check when a node is built -/

/-- **Settings within the ranges of an encoding**, as far as messages depend on them; the limit on
messages is left free. -/
structure ExportSettings.Admissible (settings : ExportSettings) (encoding : Encoding) : Prop where
  capacity_pos : 0 < settings.flowCapacity
  capacity_le : settings.flowCapacity ≤ maxFlowCapacity
  id_ge : minTemplateId ≤ settings.templateId
  id_le : encoding = .compact → settings.templateId ≤ maxCompactId
  /-- The id of the counters is left to them. -/
  distinct : settings.reportsCounters = true → settings.templateId ≠ reportTemplateId

/-- **The settings of a valid configuration are within the ranges** of the encodings in use. -/
theorem Config.admissible_of_validate {c : Config} (h : c.validate = .ok ()) {encoding : Encoding}
    (he : encoding = .compact → c.usesCompact = true)
    (hid : c.exporting.reportsCounters = true → c.exporting.templateId ≠ reportTemplateId) :
    c.exporting.Admissible encoding := by
  obtain ⟨⟨hpos, hle⟩, -, hreserved, hcompact, -⟩ := ranges_of_validate h
  exact ⟨hpos, hle, hreserved, fun hc => hcompact (he hc), hid⟩

namespace LocalExport

variable {settings : ExportSettings} {encoding : Encoding}

/-- Settings within the ranges describe an export, whether or not it fits. -/
theorem exists_ofSettings (h : settings.Admissible encoding) :
    ∃ l, ofSettings settings = .ok l ∧ l.table.capacity = settings.flowCapacity := by
  have hid : (settings.reportsCounters && settings.templateId == reportTemplateId) = false := by
    rw [Bool.and_eq_false_imp]
    intro hr
    rw [beq_eq_false_iff_ne]
    exact h.distinct hr
  have htable : FlowTable.ofCapacity settings.flowCapacity
      = .ok ⟨settings.flowCapacity, [], h.capacity_pos, h.capacity_le, Nat.zero_le _⟩ :=
    dif_pos ⟨h.capacity_pos, h.capacity_le⟩
  obtain ⟨flows, hflows⟩ :
      ∃ t, flowTemplate settings.templateId settings.compactDestination = .ok t :=
    Template.exists_ofElements h.id_ge (by rw [List.length_cons]; decide)
  obtain ⟨report, hreport⟩ : ∃ t, reportTemplate reportTemplateId = .ok t :=
    Template.exists_ofElements (by decide) (by decide)
  simp only [ofSettings, hid, htable, hflows, hreport, bind, Except.bind, Except.mapError,
    Except.map]
  cases settings.reportsCounters with
  | true => exact ⟨_, rfl, rfl⟩
  | false => exact ⟨_, rfl, rfl⟩

theorem regular_ofSettings (h : settings.Admissible encoding) {l : LocalExport}
    (hl : ofSettings settings = .ok l) : l.Regular encoding := by
  obtain ⟨-, hid, helements, -, hreport, -⟩ := ofSettings_ok hl
  exact ⟨⟨_, helements⟩, fun he => by rw [hid]; exact h.id_le he, hreport⟩

/-- **The check when a node is built is exactly right.**  Settings within the ranges describe an
export, and it is built exactly if in buffers of the limit on messages its template message and its
data message are always written, whatever was observed and whatever the counters say.  Otherwise the
overflow that is reported needs the octets of the longer of two messages: the template message, and
the data message of a full table, which observations lead to; and these are more than the limit. -/
theorem built_iff_alwaysWritten (h : settings.Admissible encoding) :
    ∃ l, ofSettings settings = .ok l ∧
      (build settings encoding = .ok l ↔ l.AlwaysWritten encoding settings.maxMessage) ∧
      ∃ definitions records : Nat,
        (∀ seen, (l.after seen).MessageTakes encoding .template definitions) ∧
        (∃ seen, (l.after seen).table.records.length = settings.flowCapacity) ∧
        (∀ seen, (l.after seen).table.records.length = settings.flowCapacity →
          (l.after seen).MessageTakes encoding .data records) ∧
        (build settings encoding ≠ .ok l →
          build settings encoding
              = .error (.bufferOverflow (max definitions records) settings.maxMessage) ∧
            settings.maxMessage < max definitions records) := by
  obtain ⟨l, hl, hcapacity⟩ := exists_ofSettings h
  have hregular := regular_ofSettings h hl
  have hempty : l.table.records = [] := (ofSettings_ok hl).1
  refine ⟨l, hl, ?_, l.messageLength encoding .template, l.messageLength encoding .data,
    ?_, ?_, ?_, ?_⟩
  · rw [hregular.alwaysWritten_iff hempty, build_eq_ok_iff]
    constructor
    · rintro ⟨-, htemplate, hdata⟩ kind
      cases kind with
      | template => exact htemplate
      | data => exact hdata
    · intro hroom
      exact ⟨hl, hroom .template, hroom .data⟩
  · intro seen
    have htakes := (hregular.withTable _).messageTakes .template (l := l.after seen) nofun
    rwa [messageLength_after hempty] at htakes
  · obtain ⟨seen, hfull⟩ := FlowTable.exists_full hempty
    exact ⟨seen, hfull.trans hcapacity⟩
  · intro seen hfull
    have hcapacity' : (l.after seen).table.capacity = settings.flowCapacity :=
      (capacity_after hempty seen).trans hcapacity
    have htakes := (hregular.withTable _).messageTakes .data (l := l.after seen)
      fun _ => hfull.trans hcapacity'.symm
    rwa [messageLength_after hempty] at htakes
  · intro hne
    rw [build_eq hl] at hne ⊢
    split at hne
    · rename_i hlong
      exact ⟨if_pos hlong, hlong⟩
    · exact absurd rfl hne

/-- Forty flows by node id and the counters take 433 octets: one less is refused. -/
theorem built_iff_alwaysWritten_oneLess :
    let config (limit : Nat) : Config :=
      { node := ⟨.unspecified, .aggregator⟩
        exporting :=
          { flowCapacity := 40, compactDestination := true, reportsCounters := true,
            maxMessage := limit }
        transport := { parent := some .unspecified } }
    (config 433).validate = .ok () ∧ (config 432).validate = .ok () ∧
      (∃ l, build (config 433).exporting .compact = .ok l ∧ l.AlwaysWritten .compact 433) ∧
      build (config 432).exporting .compact = .error (.bufferOverflow 433 432) ∧
      ∃ l, ofSettings (config 432).exporting = .ok l ∧ ¬ l.AlwaysWritten .compact 432 := by
  intro config
  have hvalid : (config 433).validate = .ok () ∧ (config 432).validate = .ok () := by decide
  have hranges : (config 433).exporting.Admissible .compact :=
    Config.admissible_of_validate hvalid.1 (fun _ => by decide) (by decide)
  have hranges' : (config 432).exporting.Admissible .compact :=
    Config.admissible_of_validate hvalid.2 (fun _ => by decide) (by decide)
  obtain ⟨l, -, hiff, _, _, -, -, -, hrefused⟩ := built_iff_alwaysWritten hranges
  obtain ⟨l', hl', hiff', definitions, records, -, -, -, hrefused'⟩ :=
    built_iff_alwaysWritten hranges'
  have hbuilt : (build (config 433).exporting .compact).isOk = true := by decide
  have hrefusal : (build (config 432).exporting .compact).map (fun _ => ())
      = .error (.bufferOverflow 433 432) := by decide
  have hok : build (config 433).exporting .compact = .ok l := by
    by_contra hne
    rw [(hrefused hne).1] at hbuilt
    cases hbuilt
  have hne : build (config 432).exporting .compact ≠ .ok l' := by
    intro hok'
    rw [hok'] at hrefusal
    cases hrefusal
  obtain ⟨hoverflow, -⟩ := hrefused' hne
  have hneeded : max definitions records = 433 := by
    rw [hoverflow] at hrefusal
    exact (NodeError.bufferOverflow.inj (Except.error.inj hrefusal)).1
  rw [hneeded] at hoverflow
  exact ⟨hvalid.1, hvalid.2, ⟨l, hok, hiff.mp hok⟩, hoverflow, l', hl', mt hiff'.mpr hne⟩

end LocalExport

end FlowExport
