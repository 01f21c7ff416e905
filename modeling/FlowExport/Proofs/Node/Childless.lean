/-
# An aggregator without children

An aggregator writes its own templates and records as a compact message, reads that message back,
merges it, and writes what it has merged.  A leaf that exports in the compact encoding writes its
message and is done.  Where no child ever sends anything, nobody can tell the two apart: over any
run of ticks and observations they hand the same octets to the transport, in the same order and
under the same numbers, and everything that can be asked of them agrees (`childless_run`).

The detour changes nothing because a message of one set is merged into an aggregation that is empty
at the start of every tick (`Aggregation.merge_only_definition`, `Aggregation.merge_only_records`):
it is never refused, so nothing is dropped, and the one place that it fills is written as the frame
it was read from.  Counters, which would be a second set, are left out here.
-/
import FlowExport.Proofs.Node.Aggregator
import FlowExport.Proofs.Wire.Composition

namespace FlowExport

/-! ## 1. The one set of a node -/

namespace LocalExport

/-- The fields, or the records, that the set of the flows announces. -/
def count (l : LocalExport) : Kind → Nat
  | .template => l.flows.elements.length
  | .data => l.table.records.length

/-- Their octets. -/
def body (l : LocalExport) : Kind → List UInt8
  | .template => l.flows.specifiers.flatMap (·.encode)
  | .data => l.table.records.flatMap l.flows.encodeRecord

/-- **The set of the flows**, as it is written. -/
def frame (l : LocalExport) (kind : Kind) : Frame :=
  .ofSet .compact kind l.flows.id (l.count kind) (l.body kind)

/-- The set of the flows, as it is read. -/
def set (l : LocalExport) (kind : Kind) : CompactSet :=
  ⟨l.flows.id, UInt8.ofNat (l.count kind), l.body kind⟩

/-- **An export of flows and nothing else**, in compact messages. -/
structure OnlyFlows (settings : ExportSettings) (l : LocalExport) : Prop where
  built : l.Built settings .compact
  report : l.report = none
  id_le : settings.templateId ≤ maxCompactId
  message_le : settings.maxMessage ≤ maxLength

theorem OnlyFlows.withTable {settings : ExportSettings} {l : LocalExport}
    (h : l.OnlyFlows settings) {table : FlowTable} (hc : table.capacity = l.table.capacity) :
    LocalExport.OnlyFlows settings { l with table } :=
  ⟨h.built.withTable hc, h.report, h.id_le, h.message_le⟩

section OnlyFlows

variable {settings : ExportSettings} {l : LocalExport} (h : l.OnlyFlows settings) {kind : Kind}

theorem count_le (l : LocalExport) (kind : Kind) : l.count kind ≤ maxCompactCount := by
  cases kind with
  | template => exact l.flows.length_le
  | data => exact Nat.le_trans l.table.length_le l.table.capacity_le

theorem toNat_count (l : LocalExport) (kind : Kind) :
    (l.set kind).count.toNat = l.count kind := by
  have hle := l.count_le kind
  rw [maxCompactCount] at hle
  exact UInt8.toNat_ofNat_of_lt (Nat.lt_succ_of_le hle)

include h

theorem OnlyFlows.carries (kind : Kind) :
    Encoding.compact.Carries l.flows.id (l.count kind) :=
  h.built.carries_flows (fun _ => h.id_le) (l.count_le kind)

theorem OnlyFlows.hasData_iff : l.hasData = true ↔ l.table.records ≠ [] := by
  rw [hasData, h.report, Option.isSome_none, Bool.or_false, Bool.not_eq_true', FlowTable.isEmpty,
    List.isEmpty_eq_false_iff]

variable (hany : kind = .data → l.table.records ≠ [])

include hany

/-- **A message of such an export has one set.** -/
theorem OnlyFlows.writes (counters : Counters) : ∃ step records,
    l.write counters kind = Draft.fillAll [step] ∧
      Draft.Writes .compact kind step () (l.frame kind) records := by
  have hcarries := h.carries kind
  cases kind with
  | template =>
    refine ⟨Draft.addTemplate l.flows, 0, ?_, Draft.writes_addTemplate l.flows hcarries⟩
    rw [write, writeTemplates, h.report]
    rfl
  | data =>
    refine ⟨_, _, ?_, Draft.writes_addSet_data l.flows l.table.records hcarries⟩
    have hempty : l.table.isEmpty = false := List.isEmpty_eq_false_iff.mpr (hany rfl)
    rw [write, writeData, h.report, hempty]
    rfl

omit hany in
/-- The message is within the limit that the settings set. -/
theorem OnlyFlows.length_le (kind : Kind) :
    Encoding.compact.headerLength + (l.frame kind).encode.length ≤ settings.maxMessage := by
  rw [frame, length_encode_ofSet]
  cases kind with
  | template =>
    have hle := h.built.templates_le
    simp only [templateMessageLength, Encoding.templateMessageLength, h.report, total_eq_sum,
      Option.toList_none, List.map_nil, List.map_cons, List.sum_cons, List.sum_nil,
      Nat.add_zero] at hle
    rw [body, Template.length_flatMap_specifiers]
    exact hle
  | data =>
    have hle := h.built.data_le
    have hrecords : l.table.records.length * l.flows.recordWidth
        ≤ l.table.capacity * l.flows.recordWidth := Nat.mul_le_mul_right _ l.table.length_le
    simp only [dataMessageLength, Encoding.dataMessageLength, h.report, total_eq_sum,
      Option.toList_none, List.map_nil, List.map_cons, List.sum_cons, List.sum_nil,
      Nat.add_zero] at hle
    rw [body, Draft.length_flatMap_encodeRecord]
    simp only
    omega

omit hany in
/-- A reader takes the set. -/
theorem OnlyFlows.check (kind : Kind) : (l.set kind).check kind = .ok () := by
  cases kind with
  | template =>
    have hvalid : ∀ s ∈ l.flows.specifiers, s.Valid :=
      fun s hs => Template.valid_of_mem_specifiers hs
    have hlength := l.flows.length_specifiers
    have hcheck : (CompactSet.mk l.flows.id _ _).check .template = .ok () :=
      CompactSet.check_template hvalid (by rw [hlength]; exact l.flows.length_le)
    rwa [hlength] at hcheck
  | data =>
    have hwidth : 0 < l.flows.recordWidth := by
      refine Template.recordWidth_pos ?_
      rw [h.built.elements]
      exact List.cons_ne_nil _ _
    have hcheck : (CompactSet.mk l.flows.id _ _).check .data = .ok () :=
      CompactSet.check_data hwidth (fun r hr => Template.length_of_mem_encoded hr)
        (by rw [List.length_map]; exact l.count_le .data)
    rw [List.length_map, ← List.flatMap_def] at hcheck
    exact hcheck

variable {buffer : Buffer} (hcap : buffer.capacity = settings.maxMessage) (x : Exporter)
  (time : UInt32)

include hcap

omit hany in
/-- A step that writes the frame makes a message of it. -/
theorem OnlyFlows.compose_step {step : Draft.Step Unit} {records : Nat}
    (hw : Draft.Writes .compact kind step () (l.frame kind) records) : ∃ buffer',
    Draft.compose buffer x .compact kind time (Draft.fillAll [step])
      = (.ok (x.message .compact kind time (l.frame kind).encode), buffer', x.advance) ∧
    buffer'.capacity = buffer.capacity := by
  have hlen := h.length_le kind
  have hmax := h.message_le
  have hone : ((([()] : List Unit).map fun _ => l.frame kind).flatMap Frame.encode)
      = (l.frame kind).encode := List.append_nil _
  rw [← hone]
  exact Draft.compose_ok (fun _ _ => hw) buffer x time (by rw [hone]; omega)
    (by rw [hone]; omega)

/-- **What the node writes itself** is one frame behind a header. -/
theorem OnlyFlows.compose_write (counters : Counters) : ∃ buffer',
    Draft.compose buffer x .compact kind time (l.write counters kind)
      = (.ok (x.message .compact kind time (l.frame kind).encode), buffer', x.advance) ∧
    buffer'.capacity = buffer.capacity := by
  obtain ⟨step, records, hwrite, hw⟩ := h.writes hany counters
  rw [hwrite]
  exact h.compose_step hcap x time hw

omit hany in
/-- **What is written of its octets** is the same. -/
theorem OnlyFlows.compose_raw (kind : Kind) : ∃ buffer',
    Draft.compose buffer x .compact kind time
        (Draft.fillAll [Draft.addRaw l.flows.id (l.count kind) (l.body kind)])
      = (.ok (x.message .compact kind time (l.frame kind).encode), buffer', x.advance) ∧
    buffer'.capacity = buffer.capacity :=
  h.compose_step hcap x time (Draft.writes_addRaw kind (l.body kind) (h.carries kind))

omit hany hcap in
/-- **What the node writes itself, read back.** -/
theorem OnlyFlows.parse (kind : Kind) : ∃ m,
    CompactMessage.parse (x.message .compact kind time (l.frame kind).encode) = .ok m ∧
      m.kind = kind ∧ m.sets = [l.set kind] := by
  have hset : CompactSet.ofFrame (l.frame kind) = l.set kind :=
    CompactSet.ofFrame_ofSet kind (l.body kind) (h.carries kind)
  have hone : [l.frame kind].flatMap Frame.encode = (l.frame kind).encode := List.append_nil _
  have hlen := Nat.le_trans (h.length_le kind) h.message_le
  rw [← hone] at hlen ⊢
  have hparse := CompactMessage.parse_message x kind time hlen (by
    intro f hf
    rw [List.mem_singleton.mp hf, hset]
    exact h.check kind)
  refine ⟨_, hparse, rfl, ?_⟩
  rw [CompactMessage.sets_mk _ (Frame.length_le_of_flatMap hlen), List.map_singleton, hset]

end OnlyFlows

end LocalExport

/-! ## 2. The only message of a tick -/

namespace Aggregation

variable {a : Aggregation} {m : CompactMessage} {s : CompactSet}

/-- **A definition that comes alone** is retained. -/
theorem merge_only_definition (ht : a.templates = []) (hfree : 0 < a.maxTemplates)
    (hk : m.kind = .template) (hs : m.sets = [s])
    (hlen : Encoding.compact.headerLength + setLength s.body ≤ a.maxMessage) :
    a.merge m
      = (.ok 0, { a with templates := [⟨s.template, s.count.toNat, s.body⟩] }) := by
  obtain ⟨places, hplaces⟩ : ∃ places, a.maxTemplates = places + 1 :=
    ⟨a.maxTemplates - 1, by omega⟩
  have hlength : a.templateMessageLength = Encoding.compact.headerLength := by
    rw [templateMessageLength, ht]
    rfl
  have hcheck : checkTemplates a.templates m.sets (a.maxTemplates - a.templates.length)
      a.templateMessageLength
        = .ok (Encoding.compact.headerLength + setLength s.body) := by
    rw [hs, ht, hlength, List.length_nil, Nat.sub_zero, hplaces]
    rfl
  have hretain : a.retainAll m.sets
      = (.ok (), { a with templates := [⟨s.template, s.count.toNat, s.body⟩] }) := by
    have hroom : ¬ a.maxTemplates ≤ 0 := by omega
    rw [hs, retainAll, retain, ht]
    simp only [List.any_nil, Bool.false_eq_true, if_false, List.length_nil, hroom,
      List.nil_append]
    rfl
  rw [merge, hk]
  simp only [hcheck, hretain]
  rw [if_neg (Nat.not_lt.mpr hlen)]

/-- **Records that come alone** are merged. -/
theorem merge_only_records (hd : a.data = []) (hm : a.marked = 0) (hfree : 0 < a.maxTemplates)
    (hk : m.kind = .data) (hs : m.sets = [s]) (hc : s.count ≠ 0)
    (hlen : Encoding.compact.headerLength + setLength s.body ≤ a.maxMessage) :
    ∃ n, a.merge m
      = (.ok n, { a with data := [⟨s.template, s.recordWidth, s.count.toNat, 0, s.body⟩] }) := by
  have hcheckpoint : a.checkpoint = a := by
    rw [checkpoint, hd, List.length_nil, List.map_nil, ← hm, ← hd]
  have hcount : ¬ maxCompactCount < s.count.toNat := by
    have := s.count.toNat_lt
    rw [maxCompactCount]
    omega
  have hlength : a.dataMessageLength = Encoding.compact.headerLength := by
    rw [dataMessageLength, hd]
    rfl
  have hset : a.mergeSet s = (.ok (),
      { a with data := [⟨s.template, s.recordWidth, s.count.toNat, 0, s.body⟩] }) := by
    have hroom : ¬ a.maxTemplates ≤ 0 := by omega
    rw [mergeSet, if_neg hc, hd, hlength]
    simp only [List.find?_nil, List.length_nil, hroom, if_false, List.nil_append, appendRecords,
      ne_eq, not_true_eq_false, Nat.zero_add, hcount, Nat.not_lt.mpr hlen, List.map_cons,
      List.map_nil, if_true]
  refine ⟨m.recordCount, ?_⟩
  rw [merge, hk]
  simp only [hcheckpoint, hs, mergeSets, hset]

end Aggregation

/-! ## 3. Outlets -/

namespace Outlet

variable {τ : Type}

/-- **Two outlets that cannot be told apart**: they differ at most in what is left in the buffer
that the last message was written into. -/
structure Same (o p : Outlet τ) : Prop where
  transport : p.transport = o.transport
  destination : p.destination = o.destination
  exporter : p.exporter = o.exporter
  counters : p.counters = o.counters
  capacity : p.buffer.capacity = o.buffer.capacity

variable [Transport τ]

/-- **One message of the node's own flows, or none**: where it is due, `o'` is `o` after the frame
was handed on behind a header; where not, it is `o`. -/
def HandsOwn (l : LocalExport) (time : UInt32) (kind : Kind) (due : Bool) (o o' : Outlet τ) :
    Prop :=
  if due then Hands o o' (o.exporter.message .compact kind time (l.frame kind).encode)
  else o' = o

theorem HandsOwn.capacity {l : LocalExport} {time : UInt32} {kind : Kind} {due : Bool}
    {o o' : Outlet τ} (h : HandsOwn l time kind due o o') :
    o'.buffer.capacity = o.buffer.capacity := by
  cases due with
  | true => exact Hands.capacity h
  | false => exact congrArg (·.buffer.capacity) h

/-- **Outlets that cannot be told apart stay so.** -/
theorem Same.handsOwn {o p o' p' : Outlet τ} (h : Same o p) {l : LocalExport} {time : UInt32}
    {kind : Kind} {due : Bool} (ho : HandsOwn l time kind due o o')
    (hp : HandsOwn l time kind due p p') : Same o' p' := by
  cases due with
  | true =>
    obtain ⟨b, hb, rfl⟩ := ho
    obtain ⟨c, hc, rfl⟩ := hp
    obtain ⟨transport, destination, exporter, buffer, counters⟩ := o
    obtain ⟨transport', destination', exporter', buffer', counters'⟩ := p
    obtain ⟨rfl, rfl, rfl, rfl, hcapacity⟩ := h
    exact ⟨rfl, rfl, rfl, rfl, hc.trans (hcapacity.trans hb.symm)⟩
  | false =>
    obtain rfl : o' = o := ho
    obtain rfl : p' = p := hp
    exact h

end Outlet

/-! ## 4. One tick of a leaf -/

namespace StandardNode

variable {τ : Type} {settings : ExportSettings} {n : StandardNode τ}

/-- **A leaf that exports its flows in compact messages.** -/
structure Leaf (settings : ExportSettings) (n : StandardNode τ) : Prop where
  encoding : n.encoding = .compact
  capacity : n.outlet.buffer.capacity = settings.maxMessage
  own : n.own.OnlyFlows settings

variable [Transport τ] (h : n.Leaf settings) (time : UInt32)

include h

theorem Leaf.sendOwn (kind : Kind) (hany : kind = .data → n.own.table.records ≠ []) :
    Outlet.HandsOwn n.own time kind true n.outlet (n.sendOwn kind time).outlet := by
  obtain ⟨buffer, hc, hb⟩ := h.own.compose_write hany h.capacity n.outlet.exporter time
    n.outlet.counters
  rw [Outlet.HandsOwn, if_pos rfl]
  rw [← h.encoding] at hc ⊢
  exact (Outlet.emit_ok hc hb).2

/-- The templates are handed on where they are due, and the leaf stays one. -/
theorem Leaf.sendTemplates :
    Outlet.HandsOwn n.own time .template n.schedule.isDue n.outlet
        (n.sendTemplates time).outlet ∧
      (n.sendTemplates time).Leaf settings := by
  have hhands : Outlet.HandsOwn n.own time .template n.schedule.isDue n.outlet
      (n.sendTemplates time).outlet := by
    unfold StandardNode.sendTemplates
    cases n.schedule.isDue with
    | true => exact h.sendOwn time .template fun hk => nomatch hk
    | false => rfl
  refine ⟨hhands, ?_, hhands.capacity.trans h.capacity, by rw [own_sendTemplates]; exact h.own⟩
  unfold StandardNode.sendTemplates
  cases n.schedule.isDue with
  | true => exact h.encoding
  | false => exact h.encoding

/-- The records are handed on where there are any. -/
theorem Leaf.sendData :
    Outlet.HandsOwn n.own time .data n.own.hasData n.outlet (n.sendData time).outlet := by
  unfold StandardNode.sendData
  cases hd : n.own.hasData with
  | true => exact h.sendOwn time .data fun _ => h.own.hasData_iff.mp hd
  | false => rfl

/-- **A tick of a leaf** hands on its templates where they are due, then its records where there
are any. -/
theorem Leaf.tick : ∃ o,
    Outlet.HandsOwn n.own time .template n.schedule.isDue n.outlet o ∧
    Outlet.HandsOwn n.own time .data n.own.hasData o (n.tick time).outlet := by
  obtain ⟨htemplates, hleaf⟩ := h.sendTemplates time
  have hdata := hleaf.sendData time
  rw [own_sendTemplates] at hdata
  exact ⟨(n.sendTemplates time).outlet, htemplates, hdata⟩

omit h in
/-- A tick changes the outlet, empties the table, and counts itself. -/
theorem tick_eq (n : StandardNode τ) (time : UInt32) :
    n.tick time = { n with
      outlet := (n.tick time).outlet, own := n.own.flush, schedule := n.schedule.advance } := by
  unfold tick sendData sendTemplates
  cases n.schedule.isDue <;> cases hd : n.own.hasData <;>
    simp only [hd, sendOwn, if_true, if_false, Bool.false_eq_true]

end StandardNode

/-! ## 5. One tick of an aggregator -/

/-- **What an aggregation holds of one node's flows**: a definition, records, both or neither. -/
def Aggregation.ofOwn (settings : ExportSettings) (l : LocalExport) (defined counted : Bool) :
    Aggregation :=
  { empty defaultPlaces settings.maxMessage with
    templates := if defined then [⟨l.flows.id, l.count .template, l.body .template⟩] else []
    data := if counted then
        [⟨l.flows.id, (l.set .data).recordWidth, l.count .data, 0, l.body .data⟩]
      else [] }

namespace AggregatorNode

variable {τ : Type} {settings : ExportSettings} {n : AggregatorNode τ}

/-- **An aggregator of flows**, without its aggregation. -/
structure OfFlows (settings : ExportSettings) (n : AggregatorNode τ) : Prop where
  capacity : n.outlet.buffer.capacity = settings.maxMessage
  scratch : n.scratch.capacity = settings.maxMessage
  own : n.own.OnlyFlows settings

section Merging

variable (h : n.OfFlows settings) (time : UInt32)

include h

/-- **The node's own message** reaches the aggregation as one set. -/
theorem OfFlows.mergeOwn (kind : Kind) (hany : kind = .data → n.own.table.records ≠ []) :
    ∃ scratch m, scratch.capacity = settings.maxMessage ∧ m.kind = kind ∧
      m.sets = [n.own.set kind] ∧ n.mergeOwn kind time
        = ((n.aggregation.merge m).1,
          { n with scratch, aggregation := (n.aggregation.merge m).2 }) := by
  obtain ⟨scratch, hc, hb⟩ := h.own.compose_write hany h.scratch
    { domain := n.outlet.exporter.domain } time n.outlet.counters
  obtain ⟨m, hp, hk, hs⟩ := h.own.parse { domain := n.outlet.exporter.domain } time kind
  refine ⟨scratch, m, hb.trans h.scratch, hk, hs, ?_⟩
  simp only [AggregatorNode.mergeOwn, hc, mergePayload, hp]

/-- The set of a kind is within the limit of the aggregation. -/
theorem OfFlows.setLength_le (kind : Kind) :
    Encoding.compact.headerLength + Aggregation.setLength (n.own.set kind).body
      ≤ settings.maxMessage := by
  have hle := h.own.length_le kind
  rw [LocalExport.frame, length_encode_ofSet] at hle
  cases kind <;> exact hle

/-- Templates that are due are merged, and nothing else. -/
theorem OfFlows.addTemplates
    (ha : n.aggregation = .ofOwn settings n.own false false) :
    ∃ scratch, scratch.capacity = settings.maxMessage ∧
      n.addTemplates time = { n with
        scratch
        schedule := n.schedule.advance
        aggregation := .ofOwn settings n.own n.schedule.isDue false } := by
  unfold AggregatorNode.addTemplates
  cases n.schedule.isDue with
  | false =>
    refine ⟨n.scratch, h.scratch, ?_⟩
    simp only [Bool.false_eq_true, if_false, ← ha]
  | true =>
    obtain ⟨scratch, m, hcap, hk, hs, hmerge⟩ := h.mergeOwn time .template
      fun hk => nomatch hk
    have honly : n.aggregation.merge m = (.ok 0, .ofOwn settings n.own true false) := by
      rw [ha, Aggregation.merge_only_definition rfl (by decide : 0 < Aggregation.defaultPlaces) hk hs
        (h.setLength_le .template), n.own.toNat_count]
      rfl
    refine ⟨scratch, hcap, ?_⟩
    simp only [if_true, hmerge, honly]

/-- Records are merged where there are any. -/
theorem OfFlows.addData (defined : Bool)
    (ha : n.aggregation = .ofOwn settings n.own defined false) :
    ∃ scratch, scratch.capacity = settings.maxMessage ∧
      n.addData time = { n with
        scratch
        aggregation := .ofOwn settings n.own defined n.own.hasData } := by
  unfold AggregatorNode.addData
  cases hd : n.own.hasData with
  | false =>
    refine ⟨n.scratch, h.scratch, ?_⟩
    simp only [Bool.false_eq_true, if_false, ← ha]
  | true =>
    have hany := h.own.hasData_iff.mp hd
    obtain ⟨scratch, m, hcap, hk, hs, hmerge⟩ := h.mergeOwn time .data fun _ => hany
    have hcount : (n.own.set .data).count ≠ 0 := by
      intro h0
      have hzero := n.own.toNat_count .data
      rw [h0] at hzero
      exact hany (List.length_eq_zero_iff.mp hzero.symm)
    obtain ⟨k, honly⟩ := Aggregation.merge_only_records (a := .ofOwn settings n.own defined false)
      rfl rfl (by decide : 0 < Aggregation.defaultPlaces) hk hs hcount (h.setLength_le .data)
    rw [n.own.toNat_count] at honly
    rw [ha, honly] at hmerge
    refine ⟨scratch, hcap, ?_⟩
    simp only [if_true, hmerge]
    rfl

/-- **What a tick gathers** is the node's own flows. -/
theorem OfFlows.gathered (ha : n.aggregation = .ofOwn settings n.own false false) :
    ∃ scratch, scratch.capacity = settings.maxMessage ∧
      n.gathered time = { n with
        scratch
        schedule := n.schedule.advance
        aggregation := .ofOwn settings n.own n.schedule.isDue n.own.hasData } := by
  obtain ⟨scratch, hcap, htemplates⟩ := h.addTemplates time ha
  have hnext : OfFlows settings (n.addTemplates time) := by
    rw [htemplates]
    exact ⟨h.capacity, hcap, h.own⟩
  obtain ⟨scratch', hcap', hdata⟩ := hnext.addData time n.schedule.isDue
    (by rw [htemplates])
  refine ⟨scratch', hcap', ?_⟩
  rw [AggregatorNode.gathered, hdata, htemplates]

end Merging

variable [Transport τ] {l : LocalExport} (hl : l.OnlyFlows settings)
  (hcap : n.outlet.buffer.capacity = settings.maxMessage) {defined counted : Bool} (time : UInt32)

include hl hcap

/-- What would be written of the octets of a set is sent as the frame of the set. -/
theorem forward_ofOwn {kind : Kind}
    (hfill : (match kind with
      | .template => n.aggregation.writeTemplates
      | .data => n.aggregation.writeData)
      = Draft.fillAll [Draft.addRaw l.flows.id (l.count kind) (l.body kind)]) :
    Outlet.HandsOwn l time kind true n.outlet (n.forward kind time).outlet := by
  obtain ⟨buffer, hc, hb⟩ := hl.compose_raw hcap n.outlet.exporter time kind
  rw [← hfill] at hc
  exact (Outlet.emit_ok hc hb).2

/-- **What was merged of the flows is forwarded** as the frames it was read from. -/
theorem forwardAll_ofOwn (ha : n.aggregation = .ofOwn settings l defined counted) : ∃ o,
    Outlet.HandsOwn l time .template defined n.outlet o ∧
    Outlet.HandsOwn l time .data counted o (n.forwardAll time).outlet := by
  have hfirst : Outlet.HandsOwn l time .template defined n.outlet
      (if n.aggregation.templates.isEmpty then n else n.forward .template time).outlet := by
    rw [ha]
    cases defined with
    | false => rfl
    | true => exact forward_ofOwn hl hcap time (by rw [ha]; rfl)
  refine ⟨_, hfirst, ?_⟩
  -- the data goes out behind the definition, from the same aggregation
  obtain ⟨n', hn', hcap', ha'⟩ : ∃ n',
      (if n.aggregation.templates.isEmpty then n else n.forward .template time) = n' ∧
        n'.outlet.buffer.capacity = settings.maxMessage ∧ n'.aggregation = n.aggregation := by
    refine ⟨_, rfl, hfirst.capacity.trans hcap, ?_⟩
    split <;> rfl
  have hall : (n.forwardAll time).outlet
      = (if n'.aggregation.isEmpty then n' else n'.forward .data time).outlet := by
    rw [← hn']
    rfl
  rw [ha] at ha'
  rw [hall, hn', ha']
  cases counted with
  | false => rfl
  | true => exact forward_ofOwn hl hcap' time (by rw [ha']; rfl)

end AggregatorNode

/-! ## 6. Runs -/

/-- **A leaf and an aggregator that nobody can tell apart.** -/
structure Mirrors {τ : Type} (settings : ExportSettings) (s : StandardNode τ)
    (a : AggregatorNode τ) : Prop where
  leaf : s.Leaf settings
  own : a.own = s.own
  schedule : a.schedule = s.schedule
  outlet : Outlet.Same s.outlet a.outlet
  scratch : a.scratch.capacity = settings.maxMessage
  aggregation : a.aggregation = .empty Aggregation.defaultPlaces settings.maxMessage

namespace Mirrors

variable {τ : Type} {settings : ExportSettings} {s : StandardNode τ} {a : AggregatorNode τ}

theorem ofFlows (h : Mirrors settings s a) : a.OfFlows settings :=
  ⟨h.outlet.capacity.trans h.leaf.capacity, h.scratch, by rw [h.own]; exact h.leaf.own⟩

/-- **An observation** is counted alike. -/
theorem observe (h : Mirrors settings s a) (destination : Address) (bytes : UInt64) :
    (a.observe destination bytes).1 = (s.observe destination bytes).1 ∧
      Mirrors settings (s.observe destination bytes).2 (a.observe destination bytes).2 := by
  have hobserve : a.own.observe a.outlet.counters destination bytes
      = s.own.observe s.outlet.counters destination bytes := by
    rw [h.own, h.outlet.counters]
  have hown := h.leaf.own.withTable (FlowTable.update_capacity s.own.table destination bytes)
  have houtlet := h.outlet
  refine ⟨congrArg Prod.fst hobserve, ⟨h.leaf.encoding, h.leaf.capacity, hown⟩, ?_, h.schedule,
    ⟨houtlet.transport, houtlet.destination, houtlet.exporter, ?_, houtlet.capacity⟩, h.scratch,
    h.aggregation⟩
  · exact congrArg (·.2.1) hobserve
  · exact congrArg (·.2.2) hobserve

variable [Transport τ]

/-- **A tick** hands on the same messages. -/
theorem tick (h : Mirrors settings s a) (time : UInt32) :
    Mirrors settings (s.tick time) (a.tick time) := by
  obtain ⟨o, ho₁, ho₂⟩ := h.leaf.tick time
  obtain ⟨scratch, hscratch, hg⟩ := h.ofFlows.gathered time h.aggregation
  obtain ⟨p, hp₁, hp₂⟩ := AggregatorNode.forwardAll_ofOwn
    (n := { a.gathered time with own := (a.gathered time).own.flush }) h.ofFlows.own
    (by rw [hg]; exact h.ofFlows.capacity) time (by rw [hg])
  change Outlet.HandsOwn _ _ _ _ _ (a.tick time).outlet at hp₂
  have hstart : (a.gathered time).outlet = a.outlet := by rw [hg]
  rw [h.own, h.schedule] at hp₁
  rw [h.own] at hp₂
  change Outlet.HandsOwn _ _ _ _ (a.gathered time).outlet p at hp₁
  rw [hstart] at hp₁
  have hsame := (h.outlet.handsOwn ho₁ hp₁).handsOwn ho₂ hp₂
  have hcap := ho₂.capacity.trans (ho₁.capacity.trans h.leaf.capacity)
  rw [StandardNode.tick_eq, AggregatorNode.tick_eq, hg]
  refine ⟨⟨h.leaf.encoding, hcap, h.leaf.own.withTable rfl⟩, ?_, ?_, hsame, hscratch, rfl⟩
  · rw [h.own]
  · rw [h.schedule]

end Mirrors

/-- Whether an event is a datagram that arrives. -/
def NodeEvent.isDatagram : NodeEvent → Bool
  | .datagram _ _ => true
  | _ => false

namespace Mirrors

variable {τ : Type} [Transport τ] {settings : ExportSettings} {s : StandardNode τ}
  {a : AggregatorNode τ}

/-- **One event that is no datagram** has the same outcome at both. -/
theorem handle (h : Mirrors settings s a) (clock : UInt32) {event : NodeEvent}
    (hevent : event.isDatagram = false) :
    ((Node.aggregator a).handle clock event).1 = ((Node.standard s).handle clock event).1 ∧
      ∃ s' a', ((Node.standard s).handle clock event).2 = .standard s' ∧
        ((Node.aggregator a).handle clock event).2 = .aggregator a' ∧ Mirrors settings s' a' := by
  cases event with
  | tick time => exact ⟨rfl, _, _, rfl, rfl, h.tick time⟩
  | datagram payload sender => cases hevent
  | traffic destination bytes =>
    obtain ⟨houtcome, hnext⟩ := h.observe destination bytes
    exact ⟨congrArg some houtcome, _, _, rfl, rfl, hnext⟩

/-- **Any events without datagrams** leave them alike. -/
theorem run (h : Mirrors settings s a) (events : List (UInt32 × NodeEvent))
    (hevents : ∀ event ∈ events, event.2.isDatagram = false) :
    ∃ s' a', (Node.standard s).run events = .standard s' ∧
      (Node.aggregator a).run events = .aggregator a' ∧ Mirrors settings s' a' := by
  induction events generalizing s a with
  | nil => exact ⟨s, a, rfl, rfl, h⟩
  | cons event events ih =>
    obtain ⟨-, s₁, a₁, hs, ha, h₁⟩ := h.handle event.1 (hevents event List.mem_cons_self)
    obtain ⟨s₂, a₂, hs₂, ha₂, h₂⟩ :=
      ih h₁ fun later hlater => hevents later (List.mem_cons_of_mem _ hlater)
    refine ⟨s₂, a₂, ?_, ?_, h₂⟩
    · rw [← hs₂, ← hs]
      rfl
    · rw [← ha₂, ← ha]
      rfl

omit [Transport τ] in
/-- **A leaf and an aggregator of the same settings** start alike. -/
theorem build {config : Config} {parent : Endpoint} {transport : τ}
    (hvalid : config.validate = .ok ()) (hcompact : config.exporting.encoding = .compact)
    (hreports : config.exporting.reportsCounters = false)
    (hleaf : StandardNode.build config.exporting parent transport = .ok s)
    (haggregator : AggregatorNode.build config.exporting parent transport = .ok a) :
    Mirrors config.exporting s a := by
  have hin := Config.inRange_of_validate hvalid
  simp only [StandardNode.build, hcompact, bind, Except.bind] at hleaf
  simp only [AggregatorNode.build, bind, Except.bind] at haggregator
  split at hleaf
  · simp at hleaf
  rename_i own hown
  obtain ⟨hbuilt, -⟩ := LocalExport.build_ok hown
  simp only [hown, pure, Except.pure, Except.ok.injEq] at hleaf haggregator
  subst hleaf haggregator
  have hreport : own.report = none := by
    have hnone := hbuilt.reports.trans hreports
    cases hr : own.report with
    | none => rfl
    | some t => simp [hr] at hnone
  have hid : config.exporting.templateId ≤ maxCompactId :=
    hin.id_le (by simp [Config.usesCompact, hcompact])
  exact ⟨⟨rfl, Buffer.capacity_ofCapacity _, ⟨hbuilt, hreport, hid, hin.message_le⟩⟩, rfl, rfl,
    ⟨rfl, rfl, rfl, rfl, rfl⟩, Buffer.capacity_ofCapacity _, rfl⟩

end Mirrors

/-- **An aggregator without children behaves like a compact leaf.**  Of every valid configuration
that exports in the compact encoding and does not report its counters, where both nodes can be
built: over any ticks and observations, with any transport, they hand on the same datagrams in the
same order, octet for octet, leave the transport in the same state, and agree after every event on
the next number, on the counters and on the flow table; and whatever is observed next has the same
outcome at both. -/
theorem childless_run {τ : Type} [Transport τ] {config : Config} {parent : Endpoint}
    {transport : τ} {leaf : StandardNode (Journal τ)} {aggregator : AggregatorNode (Journal τ)}
    (hvalid : config.validate = .ok ()) (hcompact : config.exporting.encoding = .compact)
    (hreports : config.exporting.reportsCounters = false)
    (hleaf : StandardNode.build config.exporting parent ⟨transport, []⟩ = .ok leaf)
    (haggregator : AggregatorNode.build config.exporting parent ⟨transport, []⟩ = .ok aggregator)
    (events : List (UInt32 × NodeEvent))
    (hevents : ∀ event ∈ events, event.2.isDatagram = false) :
    ∃ s a, (Node.standard leaf).run events = .standard s ∧
      (Node.aggregator aggregator).run events = .aggregator a ∧
      a.outlet.handed = s.outlet.handed ∧
      a.outlet.transport.transport = s.outlet.transport.transport ∧
      a.outlet.exporter.sequence = s.outlet.exporter.sequence ∧
      a.outlet.counters = s.outlet.counters ∧
      a.own.table = s.own.table ∧
      ∀ (clock : UInt32) (event : NodeEvent), event.isDatagram = false →
        ((Node.aggregator a).handle clock event).1
          = ((Node.standard s).handle clock event).1 := by
  have hstart := Mirrors.build hvalid hcompact hreports hleaf haggregator
  obtain ⟨s, a, hs, ha, h⟩ := hstart.run events hevents
  refine ⟨s, a, hs, ha, ?_, ?_, ?_, h.outlet.counters, ?_, ?_⟩
  · exact congrArg Journal.handed h.outlet.transport
  · exact congrArg Journal.transport h.outlet.transport
  · rw [h.outlet.exporter]
  · rw [h.own]
  · intro clock event hevent
    exact (h.handle clock hevent).1

/-- A leaf that exports in the compact encoding. -/
def compactLeafConfig : Config :=
  { node := ⟨.unspecified, .standard⟩
    exporting := { encoding := .compact }
    transport := { parent := some .unspecified } }

/-- Nobody can tell what stands behind a transport that refuses everything: the templates of the
first tick are handed on and lost either way. -/
theorem childless_run_refused :
    compactLeafConfig.validate = .ok () ∧
      ∃ leaf aggregator,
        StandardNode.build compactLeafConfig.exporting ⟨.unspecified, 1230⟩
          (⟨{ failing := true }, []⟩ : Journal Recorder) = .ok leaf ∧
        AggregatorNode.build compactLeafConfig.exporting ⟨.unspecified, 1230⟩
          (⟨{ failing := true }, []⟩ : Journal Recorder) = .ok aggregator ∧
        ∃ s a, (Node.standard leaf).run [(0, .traffic .unspecified 40), (0, .tick 60)]
            = .standard s ∧
          (Node.aggregator aggregator).run [(0, .traffic .unspecified 40), (0, .tick 60)]
            = .aggregator a ∧
          a.outlet.handed = s.outlet.handed ∧ a.outlet.counters = s.outlet.counters := by
  have hvalid : compactLeafConfig.validate = .ok () := rfl
  obtain ⟨leaf, hleaf⟩ : ∃ leaf, StandardNode.build compactLeafConfig.exporting
      ⟨.unspecified, 1230⟩ (⟨{ failing := true }, []⟩ : Journal Recorder) = .ok leaf := ⟨_, rfl⟩
  obtain ⟨aggregator, haggregator⟩ : ∃ aggregator, AggregatorNode.build
      compactLeafConfig.exporting ⟨.unspecified, 1230⟩
      (⟨{ failing := true }, []⟩ : Journal Recorder) = .ok aggregator := ⟨_, rfl⟩
  have hevents : ∀ event ∈ [((0 : UInt32), NodeEvent.traffic .unspecified 40), (0, .tick 60)],
      event.2.isDatagram = false := by
    decide
  obtain ⟨s, a, hs, ha, hhanded, -, -, hcounters, -, -⟩ :=
    childless_run hvalid rfl rfl hleaf haggregator _ hevents
  exact ⟨hvalid, leaf, aggregator, hleaf, haggregator, s, a, hs, ha, hhanded, hcounters⟩

end FlowExport
