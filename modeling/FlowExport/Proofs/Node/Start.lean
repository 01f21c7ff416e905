/-
# What a node that was started has

A valid configuration is within the ranges of `Config.InRange`.  An export that was built is the one
that its settings describe and fits one message even with a full table
(`LocalExport.build_eq_ok_iff`), so it has the templates of the settings (`LocalExport.Built`).
Both stay true while the node runs, since observing and flushing touch neither the templates nor
the capacity.  So writing the node's own templates or records never fails: `compose_write_template`
and `compose_write_data` say what is written, and how it is read.

`Node.start_standard`, `Node.start_aggregator` and `Node.start_gateway` take a start apart.
-/
import FlowExport.Proofs.Flow.Record
import FlowExport.Proofs.Node.Journal

namespace FlowExport

/-! ## 1. Configurations -/

/-- **The ranges of a valid configuration**, as far as messages depend on them. -/
structure Config.InRange (c : Config) : Prop where
  refresh_ne : c.exporting.refreshTicks ≠ 0
  id_le : c.usesCompact = true → c.exporting.templateId ≤ maxCompactId
  message_ge : minMaxMessage ≤ c.exporting.maxMessage
  message_le : c.exporting.maxMessage ≤ maxLength

/-- The rules of a valid configuration that bear on messages. -/
theorem Config.ranges_of_validate {c : Config} (h : c.validate = .ok ()) :
    (0 < c.exporting.flowCapacity ∧ c.exporting.flowCapacity ≤ maxFlowCapacity) ∧
      c.exporting.refreshTicks ≠ 0 ∧ minTemplateId ≤ c.exporting.templateId ∧
      (c.usesCompact = true → c.exporting.templateId ≤ maxCompactId) ∧
      minMaxMessage ≤ c.exporting.maxMessage ∧ c.exporting.maxMessage ≤ maxLength := by
  unfold validate at h
  simp only at h
  split at h
  · simp at h
  split at h
  · simp at h
  split at h
  · simp at h
  split at h
  · simp at h
  split at h
  · simp at h
  split at h
  · simp at h
  rename_i hcapacity _ hrefresh hreserved hcompact hmessage
  refine ⟨by omega, hrefresh, UInt16.not_lt.mp hreserved, fun hc => ?_, by omega, by omega⟩
  exact UInt16.not_lt.mp fun hlt => hcompact ⟨hc, hlt⟩

theorem Config.inRange_of_validate {c : Config} (h : c.validate = .ok ()) : c.InRange := by
  obtain ⟨-, hrefresh, -, hcompact, hge, hle⟩ := ranges_of_validate h
  exact ⟨hrefresh, hcompact, hge, hle⟩

namespace ExportSettings

/-- **The definitions that a node exports**: that of its flows, and that of its counters where it
reports them. -/
def definitions (settings : ExportSettings) : List (UInt16 × List FieldSpecifier) :=
  (settings.templateId, (flowElements settings.compactDestination).map (·.specifier))
    :: if settings.reportsCounters then [(reportTemplateId, reportElements.map (·.specifier))]
      else []

/-- **The records that a node exports**: those of its flows, if it tracks any, and that of its
counters where it reports them. -/
def recordSets (settings : ExportSettings) (flows : List FlowRecord) (counters : Counters) :
    List (UInt16 × List (List UInt8)) :=
  (if flows.isEmpty then []
    else [(settings.templateId, flows.map (·.octets settings.compactDestination))])
    ++ if settings.reportsCounters then [(reportTemplateId, [counters.octets])] else []

end ExportSettings

/-! ## 2. The node's own export -/

namespace LocalExport

/-- **An export that was built**: it has the templates of its settings, and its longest messages
fit. -/
structure Built (settings : ExportSettings) (encoding : Encoding) (l : LocalExport) : Prop where
  id : l.flows.id = settings.templateId
  elements : l.flows.elements = flowElements settings.compactDestination
  reports : l.report.isSome = settings.reportsCounters
  report : ∀ t, l.report = some t → t.id = reportTemplateId ∧ t.elements = reportElements
  distinct : settings.reportsCounters = true → settings.templateId ≠ reportTemplateId
  templates_le : l.templateMessageLength encoding ≤ settings.maxMessage
  data_le : l.dataMessageLength encoding ≤ settings.maxMessage

theorem mapError_eq_ok {ε ε' α : Type} {f : ε → ε'} {x : Except ε α} {a : α}
    (h : x.mapError f = .ok a) : x = .ok a := by
  cases x with
  | error e => simp [Except.mapError] at h
  | ok b => simpa [Except.mapError] using h

theorem ofCapacity_ok {capacity : Nat} {table : FlowTable}
    (h : FlowTable.ofCapacity capacity = .ok table) : table.records = [] := by
  unfold FlowTable.ofCapacity at h
  split at h
  · simp only [Except.ok.injEq] at h
    rw [← h]
  · simp at h

/-- The parts of settings that are accepted. -/
theorem ofSettings_ok {settings : ExportSettings} {l : LocalExport}
    (h : ofSettings settings = .ok l) :
    l.table.records = [] ∧ l.flows.id = settings.templateId ∧
      l.flows.elements = flowElements settings.compactDestination ∧
      l.report.isSome = settings.reportsCounters ∧
      (∀ t, l.report = some t → t.id = reportTemplateId ∧ t.elements = reportElements) ∧
      (settings.reportsCounters = true → settings.templateId ≠ reportTemplateId) := by
  unfold ofSettings at h
  simp only [bind, Except.bind, throw, throwThe, MonadExceptOf.throw] at h
  split at h
  · simp at h
  rename_i hid
  split at h
  · simp at h
  rename_i table htable
  split at h
  · simp at h
  rename_i flows hflows
  obtain ⟨hi, he⟩ := Template.ofElements_ok (mapError_eq_ok hflows)
  have ht := ofCapacity_ok (mapError_eq_ok htable)
  split at h
  · rename_i hreports
    split at h
    · simp at h
    rename_i report hreport
    simp only [pure, Except.pure, Except.ok.injEq] at h
    subst h
    obtain ⟨t, hr, rfl⟩ := FieldSpecifier.map_eq_ok (mapError_eq_ok hreport)
    refine ⟨ht, hi, he, hreports.symm, ?_, fun _ heq => hid ?_⟩
    · intro t' heq
      rw [← Option.some.inj heq]
      exact Template.ofElements_ok hr
    · simp [hreports, heq]
  · rename_i hreports
    simp only [pure, Except.pure, Except.ok.injEq] at h
    subst h
    refine ⟨ht, hi, he, (Bool.eq_false_iff.mpr hreports).symm, ?_, fun hr => absurd hr hreports⟩
    intro t heq
    simp at heq

/-- **What building checks** of an export that the settings describe. -/
theorem build_eq {settings : ExportSettings} {encoding : Encoding} {l : LocalExport}
    (h : ofSettings settings = .ok l) :
    build settings encoding =
      if settings.maxMessage < max (l.templateMessageLength encoding) (l.dataMessageLength encoding)
      then .error (.bufferOverflow
        (max (l.templateMessageLength encoding) (l.dataMessageLength encoding)) settings.maxMessage)
      else .ok l := by
  simp only [build, h, bind, Except.bind]
  split <;> rfl

/-- **An export that is built** is the one that the settings describe, and its longest messages
fit. -/
theorem build_eq_ok_iff {settings : ExportSettings} {encoding : Encoding} {l : LocalExport} :
    build settings encoding = .ok l ↔ ofSettings settings = .ok l ∧
      l.templateMessageLength encoding ≤ settings.maxMessage ∧
      l.dataMessageLength encoding ≤ settings.maxMessage := by
  cases hl : ofSettings settings with
  | error e => simp [build, hl, bind, Except.bind]
  | ok l' =>
    rw [build_eq hl, ← Nat.max_le]
    split
    · rename_i hlong
      constructor
      · nofun
      · rintro ⟨heq, hroom⟩
        rw [Except.ok.inj heq] at hlong
        exact absurd hroom (Nat.not_le.mpr hlong)
    · rename_i hroom
      constructor
      · rintro heq
        rw [← Except.ok.inj heq]
        exact ⟨rfl, Nat.not_lt.mp hroom⟩
      · exact And.left

/-- An export that is built starts with no flows. -/
theorem build_ok {settings : ExportSettings} {encoding : Encoding} {l : LocalExport}
    (h : build settings encoding = .ok l) : l.Built settings encoding ∧ l.table.records = [] := by
  obtain ⟨hl, htemplates, hdata⟩ := build_eq_ok_iff.mp h
  obtain ⟨ht, hid, hel, hreports, hreport, hdistinct⟩ := ofSettings_ok hl
  exact ⟨⟨hid, hel, hreports, hreport, hdistinct, htemplates, hdata⟩, ht⟩

/-! ## 3. Writing it -/

/-- The steps that add the definitions, each with what it adds. -/
def definitionSteps (l : LocalExport) :
    List (Draft.Step Unit × UInt16 × List FieldSpecifier) :=
  (Draft.addTemplate l.flows, l.flows.id, l.flows.specifiers)
    :: l.report.toList.map fun t => (Draft.addTemplate t, t.id, t.specifiers)

/-- The steps that add the records, each with what it adds. -/
def recordSteps (l : LocalExport) (counters : Counters) :
    List (Draft.Step Unit × UInt16 × List (List UInt8)) :=
  (if l.table.isEmpty then []
    else [(Draft.addSet l.flows l.table.source .data, l.flows.id,
      l.table.records.map l.flows.encodeRecord)])
    ++ l.report.toList.map fun t =>
      (Draft.addSet t counters.source .data, t.id, [t.encodeRecord counters])

theorem writeTemplates_eq (l : LocalExport) :
    l.writeTemplates = Draft.fillAll (l.definitionSteps.map (·.1)) := by
  rw [writeTemplates, definitionSteps, List.map_cons, List.map_map]
  rfl

theorem writeData_eq (l : LocalExport) (counters : Counters) :
    l.writeData counters = Draft.fillAll ((l.recordSteps counters).map (·.1)) := by
  rw [writeData, recordSteps, List.map_append, List.map_map]
  cases l.table.isEmpty <;> rfl

theorem templateMessageLength_eq (l : LocalExport) (encoding : Encoding) :
    encoding.headerLength + (l.definitionSteps.map fun p =>
        encoding.templateSetHeaderLength + (p.2.2.flatMap (·.encode)).length).sum
      = l.templateMessageLength encoding := by
  simp only [templateMessageLength, Encoding.templateMessageLength, definitionSteps, total_eq_sum,
    List.map_cons, List.map_map, List.sum_cons, Function.comp_def,
    Template.length_flatMap_specifiers]

theorem dataMessageLength_eq (l : LocalExport) (encoding : Encoding) :
    l.dataMessageLength encoding = encoding.headerLength
      + ((encoding.setHeaderLength + l.table.capacity * l.flows.recordWidth)
        + (l.report.toList.map fun t => encoding.setHeaderLength + 1 * t.recordWidth).sum) := by
  simp only [dataMessageLength, Encoding.dataMessageLength, total_eq_sum, List.map_cons,
    List.map_map, List.sum_cons]
  rfl

/-- The records of a table take no more than those of a full one. -/
theorem recordsLength_le (l : LocalExport) :
    l.table.records.length * l.flows.recordWidth ≤ l.table.capacity * l.flows.recordWidth :=
  Nat.mul_le_mul_right _ l.table.length_le

section Built

variable {settings : ExportSettings} {encoding : Encoding} {l : LocalExport}
  (h : l.Built settings encoding)

include h

/-- Observing and flushing leave an export as it was built. -/
theorem Built.withTable {table : FlowTable} (hc : table.capacity = l.table.capacity) :
    LocalExport.Built settings encoding { l with table } :=
  ⟨h.id, h.elements, h.reports, h.report, h.distinct, h.templates_le, by
    have := h.data_le
    unfold dataMessageLength at this ⊢
    rwa [hc]⟩

theorem Built.report_map {α : Type} (f : Template Counters → α) {v : α}
    (hf : ∀ t, l.report = some t → f t = v) :
    l.report.toList.map f = if settings.reportsCounters then [v] else [] := by
  rw [← h.reports]
  cases hr : l.report with
  | none => rfl
  | some t =>
    rw [Option.toList_some, List.map_singleton, hf t hr]
    rfl

theorem Built.definitions_eq :
    (l.definitionSteps.map fun p => (p.2.1, p.2.2)) = settings.definitions := by
  have hreport := h.report_map (fun t => (t.id, t.specifiers)) fun t ht => by
    rw [(h.report t ht).1, Template.specifiers, (h.report t ht).2]
  rw [definitionSteps, List.map_cons, List.map_map, ExportSettings.definitions, ← hreport, h.id,
    Template.specifiers, h.elements]
  rfl

theorem Built.recordSets_eq (counters : Counters) :
    ((l.recordSteps counters).map fun p => (p.2.1, p.2.2))
      = settings.recordSets l.table.records counters := by
  have hflows : l.table.records.map l.flows.encodeRecord
      = l.table.records.map (·.octets settings.compactDestination) :=
    List.map_congr_left fun r _ => encodeRecord_flow h.elements r
  have hreport := h.report_map (fun t => (t.id, [t.encodeRecord counters])) fun t ht => by
    rw [(h.report t ht).1, encodeRecord_report (h.report t ht).2]
  rw [recordSteps, List.map_append, List.map_map, ExportSettings.recordSets, ← hreport, hflows,
    h.id, FlowTable.isEmpty]
  cases l.table.records.isEmpty <;> rfl

/-- A data message is no longer than one with a full table. -/
theorem dataLength_le (counters : Counters) :
    encoding.headerLength + ((l.recordSteps counters).map fun p =>
        encoding.setHeaderLength + p.2.2.flatten.length).sum
      ≤ settings.maxMessage := by
  refine Nat.le_trans ?_ h.data_le
  have hreport : (l.report.toList.map fun t =>
      encoding.setHeaderLength + [t.encodeRecord counters].flatten.length).sum
        = (l.report.toList.map fun t => encoding.setHeaderLength + 1 * t.recordWidth).sum := by
    refine congrArg List.sum (List.map_congr_left fun t _ => ?_)
    rw [List.flatten_singleton, Template.length_encodeRecord, Nat.one_mul]
  have hflows := l.recordsLength_le
  rw [dataMessageLength_eq]
  simp only [recordSteps, List.map_append, List.map_map, List.sum_append, Function.comp_def,
    hreport]
  cases l.table.isEmpty with
  | true =>
    simp only [if_true, List.map_nil, List.sum_nil]
    omega
  | false =>
    simp only [Bool.false_eq_true, if_false, List.map_cons, List.map_nil, List.sum_cons,
      List.sum_nil, Template.length_encoded_records]
    omega

variable (hid : encoding = .compact → settings.templateId ≤ maxCompactId)

include hid

theorem Built.carries_flows {count : Nat} (hcount : count ≤ maxCompactCount) :
    encoding.Carries l.flows.id count :=
  fun he => ⟨hcount, l.flows.id_ge, by rw [h.id]; exact hid he⟩

omit hid in
theorem Built.carries_report {t : Template Counters} (ht : l.report = some t) {count : Nat}
    (hcount : count ≤ maxCompactCount) : encoding.Carries t.id count := by
  intro _
  rw [(h.report t ht).1]
  exact ⟨hcount, by decide, by decide⟩

theorem writesDefinition_of_mem {p : Draft.Step Unit × UInt16 × List FieldSpecifier}
    (hp : p ∈ l.definitionSteps) : Draft.WritesDefinition encoding p.1 p.2.1 p.2.2 := by
  rcases List.mem_cons.mp hp with rfl | hp
  · exact Template.writesDefinition (h.carries_flows hid l.flows.length_le)
  · obtain ⟨t, ht, rfl⟩ := List.mem_map.mp hp
    exact Template.writesDefinition
      (h.carries_report (Option.mem_toList.mp ht) t.length_le)

theorem writesRecords_of_mem {counters : Counters}
    {p : Draft.Step Unit × UInt16 × List (List UInt8)} (hp : p ∈ l.recordSteps counters) :
    Draft.WritesRecords encoding p.1 p.2.1 p.2.2 := by
  rcases List.mem_append.mp hp with hp | hp
  · cases he : l.table.isEmpty with
    | true => simp [he] at hp
    | false =>
      have hp : p = (Draft.addSet l.flows l.table.source .data, l.flows.id,
          l.table.records.map l.flows.encodeRecord) := by simpa [he] using hp
      subst hp
      refine Template.writesRecords (h.carries_flows hid ?_) ?_
      · exact Nat.le_trans l.table.length_le l.table.capacity_le
      · rw [h.elements]
        exact List.cons_ne_nil _ _
  · obtain ⟨t, ht, rfl⟩ := List.mem_map.mp hp
    have ht := Option.mem_toList.mp ht
    refine Template.writesRecords (h.carries_report ht ?_) ?_
    · rw [List.length_singleton]
      decide
    · rw [(h.report t ht).2]
      exact List.cons_ne_nil _ _

variable (hmax : settings.maxMessage ≤ maxLength) {buffer : Buffer}
  (hcap : buffer.capacity = settings.maxMessage) (x : Exporter) (time : UInt32)
  (counters : Counters)

include hmax hcap

/-- **A node's template message is always written.** -/
theorem compose_write_template :
    ∃ payload buffer', Draft.compose buffer x encoding .template time
        (l.write counters .template) = (.ok payload, buffer', x.advance) ∧
      buffer'.capacity = settings.maxMessage ∧ payload.length ≤ settings.maxMessage ∧
      encoding.ReadsDefinitions payload x.sequence settings.definitions := by
  have hroom := l.templateMessageLength_eq encoding
  have hle := h.templates_le
  obtain ⟨payload, buffer', hc, hb, hp, hr⟩ := Draft.compose_definitions
    (fun p hp => writesDefinition_of_mem h hid hp) buffer x time (by omega) (by omega)
  rw [← writeTemplates_eq] at hc
  rw [h.definitions_eq] at hr
  exact ⟨payload, buffer', hc, hb.trans hcap, by omega, hr⟩

/-- **A node's data message is always written.** -/
theorem compose_write_data :
    ∃ payload buffer', Draft.compose buffer x encoding .data time
        (l.write counters .data) = (.ok payload, buffer', x.advance) ∧
      buffer'.capacity = settings.maxMessage ∧ payload.length ≤ settings.maxMessage ∧
      encoding.ReadsRecords payload x.sequence
        (settings.recordSets l.table.records counters) := by
  have hroom := dataLength_le h counters
  obtain ⟨payload, buffer', hc, hb, hp, hr⟩ := Draft.compose_records
    (fun p (hp : p ∈ l.recordSteps counters) => writesRecords_of_mem h hid hp) buffer x time
    (by omega) (by omega)
  rw [← writeData_eq] at hc
  rw [h.recordSets_eq] at hr
  exact ⟨payload, buffer', hc, hb.trans hcap, by omega, hr⟩

end Built

end LocalExport

/-! ## 4. Starts -/

namespace Node

variable {τ : Type} {config : Config} {transport : τ} {n : Node τ}

theorem start_eq_ok (h : start config transport = .ok n) :
    config.InRange ∧ build config transport = .ok n := by
  unfold start at h
  split at h
  · simp at h
  · rename_i hv
    exact ⟨Config.inRange_of_validate hv, h⟩

/-- **A standard node that was started.** -/
theorem start_standard (hr : config.node.role = .standard)
    (h : start config transport = .ok n) :
    config.InRange ∧ ∃ own parent, parentOf config = .ok parent ∧
      LocalExport.build config.exporting config.exporting.encoding = .ok own ∧
      n = .standard ⟨.ofTransport transport parent config.exporting.domain
        config.exporting.maxMessage, config.exporting.encoding, own,
        .ofTicks config.exporting.refreshTicks⟩ := by
  obtain ⟨hin, hb⟩ := start_eq_ok h
  refine ⟨hin, ?_⟩
  simp only [build, hr, bind, Except.bind] at hb
  split at hb
  · simp at hb
  rename_i parent hparent
  split at hb
  · simp at hb
  rename_i node hnode
  simp only [StandardNode.build, bind, Except.bind] at hnode
  split at hnode
  · simp at hnode
  rename_i own hown
  simp only [pure, Except.pure, Except.ok.injEq] at hnode hb
  subst hnode hb
  exact ⟨own, parent, hparent, hown, rfl⟩

/-- **An aggregator that was started.** -/
theorem start_aggregator (hr : config.node.role = .aggregator)
    (h : start config transport = .ok n) :
    config.InRange ∧ ∃ own parent, parentOf config = .ok parent ∧
      LocalExport.build config.exporting .compact = .ok own ∧
      n = .aggregator ⟨.ofTransport transport parent config.exporting.domain
        config.exporting.maxMessage, own, .ofCapacity config.exporting.maxMessage,
        .empty Aggregation.defaultPlaces config.exporting.maxMessage,
        .ofTicks config.exporting.refreshTicks⟩ := by
  obtain ⟨hin, hb⟩ := start_eq_ok h
  refine ⟨hin, ?_⟩
  simp only [build, hr, bind, Except.bind] at hb
  split at hb
  · simp at hb
  rename_i parent hparent
  split at hb
  · simp at hb
  rename_i node hnode
  simp only [AggregatorNode.build, bind, Except.bind] at hnode
  split at hnode
  · simp at hnode
  rename_i own hown
  simp only [pure, Except.pure, Except.ok.injEq] at hnode hb
  subst hnode hb
  exact ⟨own, parent, hparent, hown, rfl⟩

/-- **A gateway that was started.** -/
theorem start_gateway (hr : config.node.role = .gateway)
    (h : start config transport = .ok n) :
    config.InRange ∧ ∃ collector, collectorOf config = .ok collector ∧
      n = .gateway (.build config.exporting collector transport) := by
  obtain ⟨hin, hb⟩ := start_eq_ok h
  refine ⟨hin, ?_⟩
  simp only [build, hr, bind, Except.bind] at hb
  split at hb
  · simp at hb
  rename_i collector hcollector
  simp only [pure, Except.pure, Except.ok.injEq] at hb
  exact ⟨collector, hcollector, hb.symm⟩

/-- A node of some role that reports its counters to a node above. -/
def reportingConfig (role : Role) : Config :=
  { node := ⟨.unspecified, role⟩
    exporting := { reportsCounters := true }
    transport := { parent := some .unspecified } }

theorem start_reportingConfig (role : Role) (hr : role ≠ .gateway) (transport : τ) :
    ∃ n₀, start (reportingConfig role) transport = .ok n₀ := by
  cases role with
  | standard => exact ⟨_, rfl⟩
  | aggregator => exact ⟨_, rfl⟩
  | gateway => exact absurd rfl hr

/-- What is computed from a start holds of the node that was started. -/
theorem eq_of_map_start {β : Type} {f : Node τ → β} {value : β}
    (h : start config transport = .ok n)
    (hv : (start config transport).toOption.map f = some value) : f n = value := by
  rw [h] at hv
  exact Option.some.inj hv

/-- What is computed from a run holds of the node that was reached. -/
theorem eq_of_map_run [Transport τ] {β : Type} {f : Node τ → β} {value : β} {n' : Node τ}
    {events : List (UInt32 × NodeEvent)} (h : start config transport = .ok n)
    (hrun : n.run events = n')
    (hv : (start config transport).toOption.map (fun n => f (n.run events)) = some value) :
    f n' = value := by
  rw [← hrun]
  exact eq_of_map_start (f := fun n => f (n.run events)) h hv

end Node

end FlowExport
