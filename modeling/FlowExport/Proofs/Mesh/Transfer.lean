/-
# What a node passes on

In a mesh that loses nothing, what a node has sent is in flight until it is delivered.  The load of
a node is what it tracks, what is pending in it, and what it has in flight; a step of the node
changes its load by what comes from outside and by nothing else.  An observation adds the load of
its packet unless it is rejected, a delivery takes out what the receiver gains, and a tick only
moves records, from the table and from what is pending into the messages in flight
(`ChildInv.tick`, `AggregatorInv.tick`).

`Works` says that the transport takes every datagram, `Wide` that records are those of flows: the
counters of the nodes travel under a template of their own.
-/
import FlowExport.Proofs.Mesh.Load

namespace FlowExport

/-! ## 1. In flight -/

namespace Outlet

/-- What has been sent and not been delivered. -/
def inFlight (o : Outlet Recorder) : List Datagram :=
  o.transport.sent

/-- The outlet once the datagram in place `k` is delivered. -/
def delivered (k : Nat) (o : Outlet Recorder) : Outlet Recorder :=
  { o with transport := { o.transport with sent := o.transport.sent.eraseIdx k } }

/-- The transport takes every datagram. -/
def Works (o : Outlet Recorder) : Prop :=
  o.transport.failing = false

/-- **The flow records in flight.** -/
def flows (template : UInt16) (o : Outlet Recorder) : List (List UInt8) :=
  o.inFlight.flatMap fun datagram => flowsIn template datagram.payload

variable {o o' : Outlet Recorder}

theorem Hands.inFlight {payload : List UInt8} (h : Hands o o' payload) (hw : o.Works) :
    o'.inFlight = o.inFlight ++ [⟨payload, o.destination⟩] ∧ o'.Works := by
  obtain ⟨buffer, -, rfl⟩ := h
  obtain ⟨⟨sent, failing⟩, destination, exporter, buffer', counters⟩ := o
  obtain rfl : failing = false := hw
  exact ⟨rfl, rfl⟩

/-- **A message or none** adds its flow records to those in flight. -/
theorem HandsIf.flows {due : Prop} {limit : Nat} {reads : List UInt8 → Prop}
    (h : HandsIf due limit reads o o') (hw : o.Works) (template : UInt16)
    (records : List (List UInt8))
    (hreads : ∀ payload, reads payload → flowsIn template payload = records)
    (hnone : ¬due → records = []) :
    o'.flows template = o.flows template ++ records ∧ o'.Works := by
  by_cases hd : due
  · obtain ⟨payload, hh, -, hr⟩ := h.hands hd
    obtain ⟨hsent, hw'⟩ := hh.inFlight hw
    rw [Outlet.flows, hsent, List.flatMap_append, List.flatMap_singleton, hreads payload hr]
    exact ⟨rfl, hw'⟩
  · rw [h.rests hd, hnone hd, List.append_nil]
    exact ⟨rfl, hw⟩

/-- **What a tick hands on**, definitions and then records, adds the flow records among these. -/
theorem flows_handed {t : UInt16} {due₁ due₂ : Prop} {limit₁ limit₂ : Nat} {number₁ number₂ : UInt32}
    {definitions : List (UInt16 × List FieldSpecifier)} {sets : List (UInt16 × List (List UInt8))}
    {o₁ o₂ : Outlet Recorder}
    (h₁ : HandsIf due₁ limit₁ (Encoding.compact.ReadsDefinitions · number₁ definitions) o o₁)
    (h₂ : HandsIf due₂ limit₂ (Encoding.compact.ReadsRecords · number₂ sets) o₁ o₂)
    (hw : o.Works) (hnone : ¬due₂ → valuesOf t sets = []) :
    o₂.flows t = o.flows t ++ valuesOf t sets ∧ o₂.Works := by
  obtain ⟨hflows₁, hw₁⟩ := h₁.flows hw t [] (fun _ hr => flowsIn_definitions hr t) fun _ => rfl
  obtain ⟨hflows₂, hw₂⟩ := h₂.flows hw₁ t _ (fun _ hr => flowsIn_records hr t) hnone
  rw [hflows₁, List.append_nil] at hflows₂
  exact ⟨hflows₂, hw₂⟩

/-- **A delivery** takes the records of one datagram out of those in flight. -/
theorem flows_delivered {k : Nat} {datagram : Datagram}
    (h : o.inFlight[k]? = some datagram) (template : UInt16) :
    (o.flows template).Perm
      (flowsIn template datagram.payload ++ (o.delivered k).flows template) := by
  obtain ⟨hlt, hd⟩ := List.getElem?_eq_some_iff.mp h
  have hsplit : o.inFlight
      = o.inFlight.take k ++ datagram :: o.inFlight.drop (k + 1) := by
    rw [← hd, ← List.drop_eq_getElem_cons hlt, List.take_append_drop]
  have hrest : (o.delivered k).inFlight
      = o.inFlight.take k ++ o.inFlight.drop (k + 1) := List.eraseIdx_eq_take_drop_succ _ _
  have hmiddle : (o.inFlight.take k ++ datagram :: o.inFlight.drop (k + 1)).Perm
      (datagram :: (o.inFlight.take k ++ o.inFlight.drop (k + 1))) := List.perm_middle
  have hperm := hmiddle.flatMap_right fun datagram => flowsIn template datagram.payload
  rw [← hsplit, List.flatMap_cons, ← hrest] at hperm
  exact hperm

/-- A delivery of records of flows splits what is in flight in two. -/
theorem delivered_spec {t : UInt16} {k : Nat} {datagram : Datagram} (hwide : Wide (o.flows t))
    (h : o.inFlight[k]? = some datagram) (μ : Measure) (d : Address) :
    Wide (flowsIn t datagram.payload) ∧ Wide ((o.delivered k).flows t) ∧
      recordsLoad μ d (o.flows t) = recordsLoad μ d (flowsIn t datagram.payload)
        + recordsLoad μ d ((o.delivered k).flows t) := by
  have hperm := flows_delivered h t
  have hboth := hwide.perm hperm
  refine ⟨fun r hr => hboth r (List.mem_append_left _ hr),
    fun r hr => hboth r (List.mem_append_right _ hr), ?_⟩
  rw [recordsLoad_perm μ d hperm, recordsLoad_append]

end Outlet

/-! ## 2. Children -/

/-- **The load of a child**: what it tracks and what it has in flight. -/
def StandardNode.load (t : UInt16) (μ : Measure) (d : Address) (c : StandardNode Recorder) :
    Nat :=
  c.own.table.load μ d + recordsLoad μ d (c.outlet.flows t)

/-- **A child whose flows are exported under `t`**, with their whole destination. -/
structure ChildInv (t : UInt16) (config : Config) (c : StandardNode Recorder) : Prop where
  ready : c.Ready config
  compact : config.exporting.encoding = .compact
  id : config.exporting.templateId = t
  whole : config.exporting.compactDestination = false
  distinct : c.own.table.Distinct
  works : c.outlet.Works
  wide : Wide (c.outlet.flows t)

namespace ChildInv

variable {t : UInt16} {config : Config} {c : StandardNode Recorder} (h : ChildInv t config c)

include h

theorem observe (destination : Address) (bytes : UInt64)
    (hf : (c.observe destination bytes).2.own.table.Fits) (μ : Measure) (d : Address) :
    ChildInv t config (c.observe destination bytes).2 ∧
      (c.observe destination bytes).2.load t μ d = c.load t μ d
        + observedLoad μ d destination bytes (c.observe destination bytes).1 := by
  refine ⟨⟨h.ready.observe destination bytes, h.compact, h.id, h.whole,
    FlowTable.distinct_update h.distinct destination bytes, h.works, h.wide⟩, ?_⟩
  have hload := FlowTable.load_update h.distinct destination bytes μ d hf
  change (c.own.table.update destination bytes).2.load μ d + recordsLoad μ d (c.outlet.flows t) = _
  rw [hload, StandardNode.load]
  exact Nat.add_right_comm _ _ _

theorem tick (time : UInt32) (hf : c.own.table.Fits) (μ : Measure) (d : Address) :
    ChildInv t config (c.tick time) ∧ (c.tick time).load t μ d = c.load t μ d := by
  have h₁ := StandardNode.sendTemplates_spec h.ready time
  have h₂ := StandardNode.sendData_spec (StandardNode.sendTemplates_ready h.ready time) time
  rw [h.compact] at h₁ h₂
  rw [StandardNode.own_sendTemplates] at h₂
  have hown : valuesOf t (config.exporting.recordSets c.own.table.records
      (c.sendTemplates time).outlet.counters) = c.own.table.records.map (·.octets false) := by
    rw [← h.id, valuesOf_recordSets h.ready.built, h.whole]
  obtain ⟨hsent, hworks⟩ := Outlet.flows_handed h₁ h₂ h.works fun hd => by
    rw [not_or, Decidable.not_not] at hd
    rw [hown, hd.1, List.map_nil]
  have hflows : (c.tick time).outlet.flows t
      = c.outlet.flows t ++ c.own.table.records.map (·.octets false) := by
    rw [← hown]
    exact hsent
  refine ⟨⟨StandardNode.tick_ready h.ready time, h.compact, h.id, h.whole, List.nodup_nil, hworks,
    ?_⟩, ?_⟩
  · rw [hflows]
    exact h.wide.append (wide_table c.own.table)
  · have htable : (c.tick time).own.table.load μ d = 0 := rfl
    rw [StandardNode.load, StandardNode.load, hflows, htable, recordsLoad_append,
      recordsLoad_table μ d hf]
    omega

/-- The child once one of its datagrams is delivered. -/
theorem deliver {k : Nat} {datagram : Datagram}
    (hk : c.outlet.inFlight[k]? = some datagram) (μ : Measure) (d : Address) :
    ChildInv t config { c with outlet := c.outlet.delivered k } ∧
      Wide (flowsIn t datagram.payload) ∧
      c.load t μ d = StandardNode.load t μ d { c with outlet := c.outlet.delivered k }
        + recordsLoad μ d (flowsIn t datagram.payload) := by
  obtain ⟨hgone, hrest, hload⟩ := Outlet.delivered_spec h.wide hk μ d
  refine ⟨⟨h.ready.withOutlet rfl, h.compact, h.id, h.whole, h.distinct, h.works, hrest⟩, hgone,
    ?_⟩
  rw [StandardNode.load, hload]
  change _ = c.own.table.load μ d + recordsLoad μ d ((c.outlet.delivered k).flows t) + _
  omega

end ChildInv

/-! ## 3. The aggregator -/

/-- The flow records pending in an aggregator. -/
def AggregatorNode.pendingFlows (t : UInt16) (n : AggregatorNode Recorder) : List (List UInt8) :=
  valuesOf t n.aggregation.pending

/-- **The load of an aggregator**: what it tracks, what is pending, and what it has in flight. -/
def AggregatorNode.load (t : UInt16) (μ : Measure) (d : Address) (n : AggregatorNode Recorder) :
    Nat :=
  n.own.table.load μ d + recordsLoad μ d (n.pendingFlows t) + recordsLoad μ d (n.outlet.flows t)

/-- **An aggregator whose flows are exported under `t`**, with their whole destination. -/
structure AggregatorInv (t : UInt16) (config : Config) (n : AggregatorNode Recorder) : Prop where
  ready : n.Ready config
  id : config.exporting.templateId = t
  whole : config.exporting.compactDestination = false
  distinct : n.own.table.Distinct
  works : n.outlet.Works
  pending : Wide (n.pendingFlows t)
  wide : Wide (n.outlet.flows t)

namespace AggregatorInv

variable {t : UInt16} {config : Config} {n : AggregatorNode Recorder}
  (h : AggregatorInv t config n)

include h

theorem observe (destination : Address) (bytes : UInt64)
    (hf : (n.observe destination bytes).2.own.table.Fits) (μ : Measure) (d : Address) :
    AggregatorInv t config (n.observe destination bytes).2 ∧
      (n.observe destination bytes).2.load t μ d = n.load t μ d
        + observedLoad μ d destination bytes (n.observe destination bytes).1 := by
  refine ⟨⟨h.ready.observe destination bytes, h.id, h.whole,
    FlowTable.distinct_update h.distinct destination bytes, h.works, h.pending, h.wide⟩, ?_⟩
  have hload := FlowTable.load_update h.distinct destination bytes μ d hf
  change (n.own.table.update destination bytes).2.load μ d + recordsLoad μ d (n.pendingFlows t)
    + recordsLoad μ d (n.outlet.flows t) = _
  rw [hload, AggregatorNode.load]
  change _ = _ + observedLoad μ d destination bytes (n.own.table.update destination bytes).1
  omega

/-- **A datagram that is not dropped** brings its flow records. -/
theorem receive {payload : List UInt8} (hwide : Wide (flowsIn t payload))
    (hd : (n.receive payload).outlet.counters.dropped = n.outlet.counters.dropped)
    (μ : Measure) (d : Address) :
    AggregatorInv t config (n.receive payload) ∧
      (n.receive payload).load t μ d = n.load t μ d + recordsLoad μ d (flowsIn t payload) := by
  rcases AggregatorNode.receive_spec h.ready.inv payload with ⟨m, hp, -, hg⟩ | ⟨-, n', hg, heq⟩
  · have hflows : flowsIn t payload = valuesOf t m.items := by simp only [flowsIn, hp]
    have hperm : ((n.receive payload).pendingFlows t).Perm
        (n.pendingFlows t ++ flowsIn t payload) := by
      rw [AggregatorNode.pendingFlows, hg.pending, hflows]
      exact valuesOf_collectAll t m.items n.aggregation.pending
    refine ⟨⟨h.ready.gathers hg, h.id, h.whole, by rw [hg.own]; exact h.distinct,
      by rw [hg.outlet]; exact h.works, (h.pending.append hwide).perm hperm.symm,
      by rw [hg.outlet]; exact h.wide⟩, ?_⟩
    rw [AggregatorNode.load, AggregatorNode.load, hg.own, hg.outlet, recordsLoad_perm μ d hperm,
      recordsLoad_append]
    omega
  · -- it would have been counted
    rw [heq, AggregatorNode.drop, hg.outlet] at hd
    exact absurd hd (GatewayNode.number_ne_succ _)

/-- **A tick that drops nothing** only moves records. -/
theorem tick (time : UInt32) (hf : n.own.table.Fits)
    (hd : (n.tick time).outlet.counters.dropped = n.outlet.counters.dropped)
    (μ : Measure) (d : Address) :
    AggregatorInv t config (n.tick time) ∧ (n.tick time).load t μ d = n.load t μ d := by
  obtain ⟨o, h₁, h₂⟩ := AggregatorNode.tick_spec h.ready time
  obtain ⟨n', hg, hcase⟩ := AggregatorNode.gathered_spec h.ready time
  rcases hcase with ⟨heq, hitems⟩ | ⟨heq, -⟩
  · rw [heq] at h₁ h₂
    rw [hg.outlet] at h₁
    obtain ⟨hsent, hworks⟩ := Outlet.flows_handed h₁ h₂ h.works fun hnone => by
      rw [Decidable.not_not.mp hnone]
      rfl
    have hflows : (n.tick time).outlet.flows t = n.outlet.flows t ++ n'.pendingFlows t := hsent
    have hown : valuesOf t (config.exporting.recordSets n.own.table.records n.outlet.counters)
        = n.own.table.records.map (·.octets false) := by
      rw [← h.id, valuesOf_recordSets h.ready.built, h.whole]
    have hperm : (n'.pendingFlows t).Perm
        (n.pendingFlows t ++ n.own.table.records.map (·.octets false)) := by
      rw [AggregatorNode.pendingFlows, hg.pending, hitems, ← hown]
      exact valuesOf_collectAll t _ n.aggregation.pending
    have htick := AggregatorNode.tick_eq n time
    have hnone : (n.tick time).pendingFlows t = [] := by
      rw [htick]
      rfl
    have htable : (n.tick time).own.table.records = [] := by
      rw [htick]
      rfl
    refine ⟨⟨AggregatorNode.tick_ready h.ready time, h.id, h.whole, ?_, hworks, ?_, ?_⟩, ?_⟩
    · exact FlowTable.distinct_of_empty htable
    · rw [hnone]
      exact Wide.nil
    · rw [hflows]
      exact h.wide.append ((h.pending.append (wide_table n.own.table)).perm hperm.symm)
    · have hempty := FlowTable.load_of_empty htable μ d
      have hnil : recordsLoad μ d [] = 0 := rfl
      rw [AggregatorNode.load, AggregatorNode.load, hflows, hnone, hempty, hnil,
        recordsLoad_append, recordsLoad_perm μ d hperm, recordsLoad_append,
        recordsLoad_table μ d hf]
      omega
  · -- the node's own records would have been counted
    rw [h₂.dropped, h₁.dropped, heq, AggregatorNode.drop, hg.outlet] at hd
    exact absurd hd (GatewayNode.number_ne_succ _)

/-- The aggregator once one of its datagrams is delivered. -/
theorem deliver {k : Nat} {datagram : Datagram}
    (hk : n.outlet.inFlight[k]? = some datagram) (μ : Measure) (d : Address) :
    AggregatorInv t config { n with outlet := n.outlet.delivered k } ∧
      Wide (flowsIn t datagram.payload) ∧
      n.load t μ d = AggregatorNode.load t μ d { n with outlet := n.outlet.delivered k }
        + recordsLoad μ d (flowsIn t datagram.payload) := by
  obtain ⟨hgone, hrest, hload⟩ := Outlet.delivered_spec h.wide hk μ d
  refine ⟨⟨h.ready.withOutlet rfl, h.id, h.whole, h.distinct, h.works, h.pending, hrest⟩, hgone,
    ?_⟩
  rw [AggregatorNode.load, hload]
  change _ = n.own.table.load μ d + recordsLoad μ d (n.pendingFlows t)
    + recordsLoad μ d ((n.outlet.delivered k).flows t) + _
  omega

end AggregatorInv

/-! ## 4. The gateway -/

/-- **The flow records at the collector**, each tagged with its sender. -/
def GatewayNode.collected (t : UInt16) (n : GatewayNode Recorder) : List (List UInt8) :=
  n.outlet.inFlight.flatMap fun datagram => collectedFlows t datagram.payload

/-- A gateway that can send. -/
structure GatewayInv (n : GatewayNode Recorder) : Prop where
  capacity : n.outlet.buffer.capacity = maxLength
  works : n.outlet.Works

/-- **A datagram that is not dropped** reaches the collector with its flow records. -/
theorem GatewayInv.receive {n : GatewayNode Recorder} (h : GatewayInv n) {t : UInt16}
    (clock : UInt32) {payload : List UInt8} (sender : Address) (hwide : Wide (flowsIn t payload))
    (hd : (n.receive clock payload sender).outlet.counters.dropped = n.outlet.counters.dropped)
    (μ : Measure) (d : Address) :
    GatewayInv (n.receive clock payload sender) ∧
      recordsLoad μ d ((n.receive clock payload sender).collected t)
        = recordsLoad μ d (n.collected t) + recordsLoad μ d (flowsIn t payload) := by
  cases hp : CompactMessage.parse payload with
  | error e =>
    rw [GatewayNode.receive_malformed clock sender hp] at hd
    exact absurd hd (GatewayNode.number_ne_succ _)
  | ok m =>
    rcases Nat.lt_or_ge maxLength (m.expandedLength true) with hover | hfit
    · obtain ⟨buffer, -, heq⟩ := GatewayNode.receive_overflow clock sender hp h.capacity hover
      rw [heq] at hd
      exact absurd hd (GatewayNode.number_ne_succ _)
    · obtain ⟨bytes, full, hh, hdec, -, hsets⟩ :=
        GatewayNode.receive_fits clock sender hp h.capacity hfit
      obtain ⟨hsent, hw⟩ := hh.inFlight h.works
      refine ⟨⟨hh.capacity.trans h.capacity, hw⟩, ?_⟩
      rw [GatewayNode.collected, hsent, List.flatMap_append, List.flatMap_singleton,
        recordsLoad_append, collectedFlows_expanded hp hwide hdec hsets,
        recordsLoad_tagged μ d sender hwide]
      rfl

end FlowExport
