/-
# Traffic is conserved in a mesh

A `Mesh` is some standard nodes that report to an aggregator, which reports to a gateway, which
reports to a collector.  Steps come in any order and any number: observations, ticks, and the
delivery of any one datagram that is in flight.

A record changes its place in every step and its form on every hop, but never its load: what one
node loses the next one gains, and only an observation adds anything (`step_load`).  So in every
state the traffic observed so far is found in the tables, in flight, pending and at the collector
(`conservation`), as long as nothing is dropped and no counter outgrows its field.

Whether that is so can be computed along a run (`decidableLossless`).  On the last hop it need not
be: a message that does not overflow is not dropped by the gateway (`lossless_drain`).
-/
import FlowExport.Proofs.Mesh.Transfer

namespace FlowExport

/-! ## 1. Meshes and their runs -/

/-- **A mesh**: the children of one aggregator, the aggregator, and the gateway above it.  What a
node has sent and not been delivered is in its transport; what the gateway has sent is at the
collector. -/
structure Mesh where
  children : List (StandardNode Recorder)
  aggregator : AggregatorNode Recorder
  gateway : GatewayNode Recorder

/-- **What may happen next.**  A step of a child names its place, a delivery also the place of its
datagram among those in flight. -/
inductive MeshStep where
  | observeChild (i : Nat) (destination : Address) (bytes : UInt64)
  | observeAggregator (destination : Address) (bytes : UInt64)
  | tickChild (i : Nat) (time : UInt32)
  | deliverChild (i k : Nat)
  | tickAggregator (time : UInt32)
  | deliverAggregator (k : Nat) (clock : UInt32) (sender : Address)

namespace Mesh

/-- The mesh with another state of one child. -/
def withChild (i : Nat) (c : StandardNode Recorder) (m : Mesh) : Mesh :=
  { m with children := m.children.set i c }

/-- **One step**; nothing happens at a child or with a datagram that is not there. -/
def step (m : Mesh) : MeshStep → Mesh
  | .observeChild i destination bytes =>
    match m.children[i]? with
    | none => m
    | some c => m.withChild i (c.observe destination bytes).2
  | .observeAggregator destination bytes =>
    { m with aggregator := (m.aggregator.observe destination bytes).2 }
  | .tickChild i time =>
    match m.children[i]? with
    | none => m
    | some c => m.withChild i (c.tick time)
  | .deliverChild i k =>
    match m.children[i]? with
    | none => m
    | some c =>
      match c.outlet.inFlight[k]? with
      | none => m
      | some datagram =>
        { m.withChild i { c with outlet := c.outlet.delivered k } with
          aggregator := m.aggregator.receive datagram.payload }
  | .tickAggregator time => { m with aggregator := m.aggregator.tick time }
  | .deliverAggregator k clock sender =>
    match m.aggregator.outlet.inFlight[k]? with
    | none => m
    | some datagram =>
      { m with
        aggregator := { m.aggregator with outlet := m.aggregator.outlet.delivered k }
        gateway := m.gateway.receive clock datagram.payload sender }

/-- **Steps in order.** -/
def run (steps : List MeshStep) (m : Mesh) : Mesh :=
  steps.foldl step m

/-- A packet towards a destination, unless it was rejected. -/
def counted (destination : Address) (bytes : UInt64) (outcome : FlowOutcome) :
    Option (Address × UInt64) :=
  if outcome.isRejected then none else some (destination, bytes)

/-- **The packet that a step observes**, unless it is rejected. -/
def observation (m : Mesh) : MeshStep → Option (Address × UInt64)
  | .observeChild i destination bytes =>
    m.children[i]?.bind fun c => counted destination bytes (c.observe destination bytes).1
  | .observeAggregator destination bytes =>
    counted destination bytes (m.aggregator.observe destination bytes).1
  | _ => none

/-- **The packets that a run observes**, in order, without those that are rejected. -/
def observations : List MeshStep → Mesh → List (Address × UInt64)
  | [], _ => []
  | s :: steps, m => (m.observation s).toList ++ observations steps (m.step s)

/-- The payloads dropped so far, at the aggregator and at the gateway. -/
def dropped (m : Mesh) : UInt32 × UInt32 :=
  (m.aggregator.outlet.counters.dropped, m.gateway.outlet.counters.dropped)

/-- The counters of every flow record fit the fields that they are exported in. -/
def Fits (m : Mesh) : Prop :=
  (∀ c ∈ m.children, c.own.table.Fits) ∧ m.aggregator.own.table.Fits

instance (m : Mesh) : Decidable m.Fits :=
  inferInstanceAs (Decidable (_ ∧ _))

/-- **A run that loses nothing**: no payload is dropped, and every flow record fits in every
state. -/
def Lossless : List MeshStep → Mesh → Prop
  | [], m => m.Fits
  | s :: steps, m => m.Fits ∧ (m.step s).dropped = m.dropped ∧ Lossless steps (m.step s)

instance decidableLossless : (steps : List MeshStep) → (m : Mesh) → Decidable (m.Lossless steps)
  | [], m => inferInstanceAs (Decidable m.Fits)
  | s :: steps, m =>
    have := decidableLossless steps (m.step s)
    inferInstanceAs (Decidable (m.Fits ∧ (m.step s).dropped = m.dropped ∧ _))

/-- **A mesh that was started**: all nodes from valid configurations, those that track flows with
the same template `t`, whole destinations and the compact encoding. -/
structure Started (t : UInt16) (m : Mesh) : Prop where
  child : ∀ c ∈ m.children, ∃ config : Config, config.node.role = .standard ∧
    config.exporting.encoding = .compact ∧ config.exporting.templateId = t ∧
    config.exporting.compactDestination = false ∧
    Node.start config ({} : Recorder) = .ok (.standard c)
  aggregator : ∃ config : Config, config.node.role = .aggregator ∧
    config.exporting.templateId = t ∧ config.exporting.compactDestination = false ∧
    Node.start config ({} : Recorder) = .ok (.aggregator m.aggregator)
  gateway : ∃ config : Config, config.node.role = .gateway ∧
    Node.start config ({} : Recorder) = .ok (.gateway m.gateway)

/-! ## 2. One step -/

/-- **What stays true of a mesh** that was started. -/
structure Inv (t : UInt16) (m : Mesh) : Prop where
  child : ∀ c ∈ m.children, ∃ config, ChildInv t config c
  aggregator : ∃ config, AggregatorInv t config m.aggregator
  gateway : GatewayInv m.gateway

/-- **The load of a mesh**, node by node. -/
def load (t : UInt16) (μ : Measure) (d : Address) (m : Mesh) : Nat :=
  (m.children.map (·.load t μ d)).sum + m.aggregator.load t μ d
    + recordsLoad μ d (m.gateway.collected t)

/-- Another element in place `i` changes the sum by the difference. -/
theorem sum_set (weight : StandardNode Recorder → Nat) {children : List (StandardNode Recorder)}
    {i : Nat} {c : StandardNode Recorder} (h : children[i]? = some c)
    (c' : StandardNode Recorder) :
    ((children.set i c').map weight).sum + weight c = (children.map weight).sum + weight c' := by
  induction children generalizing i with
  | nil => simp at h
  | cons first children ih =>
    cases i with
    | zero =>
      obtain rfl : first = c := by simpa using h
      rw [List.set_cons_zero, List.map_cons, List.map_cons, List.sum_cons, List.sum_cons]
      omega
    | succ i =>
      have hrest := ih (by simpa using h)
      rw [List.set_cons_succ, List.map_cons, List.map_cons, List.sum_cons, List.sum_cons]
      omega

section

variable {t : UInt16} {m : Mesh} {i : Nat} {c : StandardNode Recorder}

theorem Inv.withChild (h : m.Inv t) {config : Config} (hc : ChildInv t config c) :
    (m.withChild i c).Inv t := by
  refine ⟨fun c' hc' => ?_, h.aggregator, h.gateway⟩
  rcases List.mem_or_eq_of_mem_set hc' with hmem | rfl
  · exact h.child c' hmem
  · exact ⟨config, hc⟩

/-- The new state of a child is one of the children. -/
theorem mem_withChild (hi : m.children[i]? = some c) (c' : StandardNode Recorder) :
    c' ∈ (m.withChild i c').children :=
  List.mem_set (List.getElem?_eq_some_iff.mp hi).1 c'

/-- A child that gains `gain` brings it to the mesh. -/
theorem load_withChild (hi : m.children[i]? = some c) {c' : StandardNode Recorder} {μ : Measure}
    {d : Address} {gain : Nat} (hgain : c'.load t μ d = c.load t μ d + gain) :
    (m.withChild i c').load t μ d = m.load t μ d + gain := by
  have hsum := sum_set (·.load t μ d) hi c'
  rw [load, load]
  change ((m.children.set i c').map (·.load t μ d)).sum + m.aggregator.load t μ d
    + recordsLoad μ d (m.gateway.collected t) = _
  omega

end

theorem sum_counted (μ : Measure) (d destination : Address) (bytes : UInt64)
    (outcome : FlowOutcome) :
    ((counted destination bytes outcome).toList.map fun o => packetLoad μ d o.1 o.2).sum
      = observedLoad μ d destination bytes outcome := by
  unfold counted observedLoad
  split
  · rfl
  · rw [Option.toList_some, List.map_singleton, List.sum_singleton]

/-- **A step adds what it observes** and nothing else, as long as it drops nothing. -/
theorem step_load {t : UInt16} {m : Mesh} (h : m.Inv t) (s : MeshStep) (hf : m.Fits)
    (hf' : (m.step s).Fits) (hd : (m.step s).dropped = m.dropped) (μ : Measure) (d : Address) :
    (m.step s).Inv t ∧ (m.step s).load t μ d
      = m.load t μ d + ((m.observation s).toList.map fun o => packetLoad μ d o.1 o.2).sum := by
  obtain ⟨config, ha⟩ := h.aggregator
  cases s with
  | observeChild i destination bytes =>
    simp only [step, observation] at hf' ⊢
    cases hi : m.children[i]? with
    | none => exact ⟨h, rfl⟩
    | some c =>
      rw [hi] at hf'
      obtain ⟨config', hc⟩ := h.child c (List.mem_of_getElem? hi)
      have hfit := hf'.1 _ (mem_withChild hi (c.observe destination bytes).2)
      obtain ⟨hc', hload⟩ := hc.observe destination bytes hfit μ d
      refine ⟨h.withChild hc', ?_⟩
      rw [Option.bind_some, sum_counted]
      exact load_withChild hi hload
  | observeAggregator destination bytes =>
    obtain ⟨ha', hload⟩ := ha.observe destination bytes hf'.2 μ d
    refine ⟨⟨h.child, ⟨config, ha'⟩, h.gateway⟩, ?_⟩
    rw [observation, sum_counted, load, load]
    simp only [step, hload]
    omega
  | tickChild i time =>
    simp only [step]
    cases hi : m.children[i]? with
    | none => exact ⟨h, rfl⟩
    | some c =>
      have hmem := List.mem_of_getElem? hi
      obtain ⟨config', hc⟩ := h.child c hmem
      obtain ⟨hc', hload⟩ := hc.tick time (hf.1 c hmem) μ d
      exact ⟨h.withChild hc', load_withChild hi hload⟩
  | deliverChild i k =>
    simp only [step] at hd ⊢
    cases hi : m.children[i]? with
    | none => exact ⟨h, rfl⟩
    | some c =>
      simp only [hi] at hd ⊢
      cases hk : c.outlet.inFlight[k]? with
      | none => exact ⟨h, rfl⟩
      | some datagram =>
        simp only [hk] at hd ⊢
        obtain ⟨config', hc⟩ := h.child c (List.mem_of_getElem? hi)
        obtain ⟨hc', hwide, hgive⟩ := hc.deliver hk μ d
        obtain ⟨ha', htake⟩ := ha.receive hwide (congrArg Prod.fst hd) μ d
        refine ⟨⟨(h.withChild hc').child, ⟨config, ha'⟩, h.gateway⟩, ?_⟩
        -- what the child loses is what the aggregator gains
        have hsum := sum_set (·.load t μ d) hi { c with outlet := c.outlet.delivered k }
        rw [load, load]
        change ((m.children.set i { c with outlet := c.outlet.delivered k }).map
          (·.load t μ d)).sum + (m.aggregator.receive datagram.payload).load t μ d
            + recordsLoad μ d (m.gateway.collected t) = _ + 0
        omega
  | tickAggregator time =>
    obtain ⟨ha', hload⟩ := ha.tick time hf.2 (congrArg Prod.fst hd) μ d
    refine ⟨⟨h.child, ⟨config, ha'⟩, h.gateway⟩, ?_⟩
    rw [load, load]
    simp only [step, hload]
    rfl
  | deliverAggregator k clock sender =>
    simp only [step] at hd ⊢
    cases hk : m.aggregator.outlet.inFlight[k]? with
    | none => exact ⟨h, rfl⟩
    | some datagram =>
      simp only [hk] at hd ⊢
      obtain ⟨ha', hwide, hgive⟩ := ha.deliver hk μ d
      obtain ⟨hg', htake⟩ := h.gateway.receive clock sender hwide (congrArg Prod.snd hd) μ d
      refine ⟨⟨h.child, ⟨config, ha'⟩, hg'⟩, ?_⟩
      rw [load, load, hgive]
      simp only [htake]
      change _ = _ + 0
      omega

/-! ## 3. Runs -/

theorem Lossless.fits {m : Mesh} {steps : List MeshStep} (h : m.Lossless steps) : m.Fits := by
  cases steps with
  | nil => exact h
  | cons s steps => exact h.1

/-- A run loses nothing if its parts lose nothing. -/
theorem lossless_append {m : Mesh} {steps steps' : List MeshStep} :
    m.Lossless (steps ++ steps') ↔ m.Lossless steps ∧ (m.run steps).Lossless steps' := by
  induction steps generalizing m with
  | nil => exact ⟨fun h => ⟨h.fits, h⟩, fun h => h.2⟩
  | cons s steps ih =>
    change m.Fits ∧ _ ∧ (m.step s).Lossless (steps ++ steps') ↔ _
    rw [ih]
    simp only [Lossless, and_assoc]
    rfl

theorem Lossless.fits_run {m : Mesh} {steps : List MeshStep} (h : m.Lossless steps) :
    (m.run steps).Fits := by
  rw [← List.append_nil steps] at h
  exact (lossless_append.mp h).2

/-- **The aggregator's messages reach the collector** without a loss, one after the other, if none
of them overflows. -/
theorem lossless_drain (clock : UInt32) (sender : Address) {m : Mesh} (hf : m.Fits)
    (hcap : m.gateway.outlet.buffer.capacity = maxLength)
    (hpass : ∀ d ∈ m.aggregator.outlet.inFlight,
      (CompactMessage.parse d.payload).isOk = true ∧ GatewayNode.overflows d.payload = false) :
    m.Lossless
      (List.replicate m.aggregator.outlet.inFlight.length (.deliverAggregator 0 clock sender)) := by
  generalize hsent : m.aggregator.outlet.inFlight = sent at hpass
  induction sent generalizing m with
  | nil => exact hf
  | cons d sent ih =>
    obtain ⟨⟨hok, ho⟩, hrest⟩ := List.forall_mem_cons.mp hpass
    obtain ⟨bytes, hhands⟩ := GatewayNode.receive_hands clock sender hcap hok ho
    have hstep : m.step (.deliverAggregator 0 clock sender) = { m with
        aggregator := { m.aggregator with outlet := m.aggregator.outlet.delivered 0 }
        gateway := m.gateway.receive clock d.payload sender } := by
      simp only [step, hsent, List.getElem?_cons_zero]
    refine ⟨hf, ?_, ?_⟩
    · rw [hstep]
      exact congrArg (m.aggregator.outlet.counters.dropped, ·) hhands.dropped
    · rw [hstep]
      refine ih hf (hhands.capacity.trans hcap) ?_ hrest
      change m.aggregator.outlet.inFlight.eraseIdx 0 = sent
      rw [hsent, List.eraseIdx_cons_zero]

/-- **A run adds what it observes.** -/
theorem run_load {t : UInt16} {m : Mesh} (h : m.Inv t) (steps : List MeshStep)
    (hl : m.Lossless steps) (μ : Measure) (d : Address) :
    (m.run steps).Inv t ∧ (m.run steps).load t μ d
      = m.load t μ d + ((m.observations steps).map fun o => packetLoad μ d o.1 o.2).sum := by
  induction steps generalizing m with
  | nil => exact ⟨h, rfl⟩
  | cons s steps ih =>
    obtain ⟨hf, hd, hl⟩ := hl
    obtain ⟨h', hload⟩ := step_load h s hf hl.fits hd μ d
    obtain ⟨hrun, hsum⟩ := ih h' hl
    refine ⟨hrun, ?_⟩
    change ((m.step s).run steps).load t μ d = _
    rw [hsum, hload, observations, List.map_append, List.sum_append, Nat.add_assoc]

/-- **A child starts in order**, and empty. -/
theorem child_started {t : UInt16} {config : Config} {c : StandardNode Recorder}
    (hrole : config.node.role = .standard) (hcompact : config.exporting.encoding = .compact)
    (hid : config.exporting.templateId = t) (hwhole : config.exporting.compactDestination = false)
    (h : Node.start config ({} : Recorder) = .ok (.standard c)) :
    ChildInv t config c ∧ c.own.table.records = [] ∧ c.outlet.flows t = [] := by
  obtain ⟨n, parent, hn, hready, htable, -, hout⟩ := StandardNode.ready_start hrole h
  obtain rfl := Node.standard.inj hn
  have hflows : c.outlet.flows t = [] := by
    rw [hout]
    rfl
  refine ⟨⟨hready, hcompact, hid, hwhole, ?_, ?_, ?_⟩, htable, hflows⟩
  · exact FlowTable.distinct_of_empty htable
  · rw [hout]
    rfl
  · rw [hflows]
    exact Wide.nil

/-- **An aggregator starts in order**, and empty. -/
theorem aggregator_started {t : UInt16} {config : Config} {n : AggregatorNode Recorder}
    (hrole : config.node.role = .aggregator) (hid : config.exporting.templateId = t)
    (hwhole : config.exporting.compactDestination = false)
    (h : Node.start config ({} : Recorder) = .ok (.aggregator n)) :
    AggregatorInv t config n ∧ n.own.table.records = [] ∧ n.pendingFlows t = [] ∧
      n.outlet.flows t = [] := by
  obtain ⟨n', parent, hn, hready, htable, -, hpend, -, hout⟩ :=
    AggregatorNode.ready_start hrole h
  obtain rfl := Node.aggregator.inj hn
  have hflows : n.outlet.flows t = [] := by
    rw [hout]
    rfl
  have hnone : n.pendingFlows t = [] := by
    rw [AggregatorNode.pendingFlows, hpend]
    rfl
  refine ⟨⟨hready, hid, hwhole, ?_, ?_, ?_, ?_⟩, htable, hnone, hflows⟩
  · exact FlowTable.distinct_of_empty htable
  · rw [hout]
    rfl
  · rw [hnone]
    exact Wide.nil
  · rw [hflows]
    exact Wide.nil

/-- **A gateway starts in order**, with nothing at the collector. -/
theorem gateway_started {config : Config} {n : GatewayNode Recorder}
    (hrole : config.node.role = .gateway)
    (h : Node.start config ({} : Recorder) = .ok (.gateway n)) (t : UInt16) :
    GatewayInv n ∧ n.collected t = [] := by
  obtain ⟨-, collector, -, hg⟩ := Node.start_gateway hrole h
  obtain rfl := Node.gateway.inj hg
  exact ⟨⟨GatewayNode.capacity_build _ _ _, rfl⟩, rfl⟩

/-- **A mesh starts in order**, and empty. -/
theorem Started.inv {t : UInt16} {m : Mesh} (h : m.Started t) :
    m.Inv t ∧ ∀ μ d, m.load t μ d = 0 := by
  have hchild : ∀ c ∈ m.children, ∃ config, ChildInv t config c ∧
      c.own.table.records = [] ∧ c.outlet.flows t = [] := by
    intro c hc
    obtain ⟨config, hrole, hcompact, hid, hwhole, hstart⟩ := h.child c hc
    exact ⟨config, child_started hrole hcompact hid hwhole hstart⟩
  obtain ⟨config, hrole, hid, hwhole, hstart⟩ := h.aggregator
  obtain ⟨ha, htable, hnone, hflows⟩ := aggregator_started hrole hid hwhole hstart
  obtain ⟨gatewayConfig, hgrole, hgstart⟩ := h.gateway
  obtain ⟨hg, hcollected⟩ := gateway_started hgrole hgstart t
  refine ⟨⟨fun c hc => ?_, ⟨config, ha⟩, hg⟩, fun μ d => ?_⟩
  · obtain ⟨config, hinv, -⟩ := hchild c hc
    exact ⟨config, hinv⟩
  · have hzero : ∀ load ∈ m.children.map (·.load t μ d), load = 0 := by
      intro load hload
      obtain ⟨c, hc, rfl⟩ := List.mem_map.mp hload
      obtain ⟨-, -, htable, hflows⟩ := hchild c hc
      rw [StandardNode.load, FlowTable.load_of_empty htable, hflows]
      rfl
    rw [load, List.sum_eq_zero_iff_forall_eq_nat.mpr hzero, AggregatorNode.load,
      FlowTable.load_of_empty htable, hnone, hflows, hcollected]
    rfl

/-- The load of the children is what they track and what they have in flight. -/
theorem sum_children (t : UInt16) (μ : Measure) (d : Address)
    (children : List (StandardNode Recorder)) :
    (children.map (·.load t μ d)).sum = (children.map (·.own.table.load μ d)).sum
      + (children.map fun c => recordsLoad μ d (c.outlet.flows t)).sum := by
  induction children with
  | nil => rfl
  | cons c children ih =>
    simp only [List.map_cons, List.sum_cons, ih]
    rw [StandardNode.load]
    omega

/-- **Traffic is conserved.**  In every run that drops no payload and outgrows no field, with the
steps in any order, the bytes observed for a destination, without those rejected, are found again,
and so are the packets: in the flow tables, in the messages in flight from the children, pending in
the aggregator, in the messages in flight from it, and at the collector. -/
theorem conservation {t : UInt16} {m : Mesh} (h : m.Started t) (steps : List MeshStep)
    (hl : m.Lossless steps) (μ : Measure) (d : Address) :
    let m' := m.run steps
    ((m.observations steps).map fun o => packetLoad μ d o.1 o.2).sum
      = ((m'.children.map (·.own.table.load μ d)).sum + m'.aggregator.own.table.load μ d)
        + (m'.children.map fun c => recordsLoad μ d (c.outlet.flows t)).sum
        + recordsLoad μ d (m'.aggregator.pendingFlows t)
        + recordsLoad μ d (m'.aggregator.outlet.flows t)
        + recordsLoad μ d (m'.gateway.collected t) := by
  intro m'
  obtain ⟨hinv, hzero⟩ := h.inv
  obtain ⟨-, hload⟩ := run_load hinv steps hl μ d
  rw [hzero, Nat.zero_add] at hload
  rw [← hload]
  change m'.load t μ d = _
  rw [load, AggregatorNode.load, sum_children]
  omega

/-- A mesh of three nodes, if they have the roles for it. -/
def ofNodes : Node Recorder → Node Recorder → Node Recorder → Option Mesh
  | .standard c, .aggregator a, .gateway g => some ⟨[c], a, g⟩
  | _, _, _ => none

/-- A leaf, an aggregator and a gateway, as they start. -/
def reporting : Option Mesh := do
  let c ← (Node.start (Node.reportingConfig .standard) {}).toOption
  let a ← (Node.start (Node.reportingConfig .aggregator) {}).toOption
  let g ← (Node.start GatewayNode.plainConfig {}).toOption
  ofNodes c a g

theorem started_reporting : ∃ m, reporting = some m ∧ m.Started minTemplateId := by
  obtain ⟨n₀, hchild⟩ := Node.start_reportingConfig .standard (by decide) ({} : Recorder)
  obtain ⟨c, -, rfl, -⟩ := StandardNode.ready_start rfl hchild
  obtain ⟨n₀, haggregator⟩ := Node.start_reportingConfig .aggregator (by decide) ({} : Recorder)
  obtain ⟨a, parent, rfl, -⟩ := AggregatorNode.ready_start rfl haggregator
  have hgateway := GatewayNode.start_plainConfig ({} : Recorder)
  refine ⟨_, by rw [reporting, hchild, haggregator, hgateway]; rfl, fun c' hc' => ?_,
    ⟨_, rfl, rfl, rfl, haggregator⟩, ⟨_, rfl, hgateway⟩⟩
  obtain rfl := List.mem_singleton.mp hc'
  exact ⟨_, rfl, rfl, rfl, rfl, hchild⟩

/-- Two packets, one at the leaf and one at the aggregator, and all that takes them to the
gateway. -/
def toGateway : List MeshStep :=
  [.observeChild 0 .unspecified 100, .observeAggregator .unspecified 40, .tickChild 0 0,
    .deliverChild 0 0, .deliverChild 0 0, .tickAggregator 0]

/-- The same up to the collector. -/
def toCollector : List MeshStep :=
  toGateway ++ List.replicate 2 (.deliverAggregator 0 0 .unspecified)

/-- What has not reached the collector. -/
def onTheWay (t : UInt16) (μ : Measure) (d : Address) (m : Mesh) : Nat :=
  ((m.children.map (·.own.table.load μ d)).sum + m.aggregator.own.table.load μ d)
    + (m.children.map fun c => recordsLoad μ d (c.outlet.flows t)).sum
    + recordsLoad μ d (m.aggregator.pendingFlows t)
    + recordsLoad μ d (m.aggregator.outlet.flows t)

/-- Both packets reach the collector, and nothing of them is left behind. -/
theorem conservation_to_collector :
    ∃ m : Mesh, m.Started minTemplateId ∧ m.Lossless toCollector ∧
      m.observations toCollector = [(.unspecified, 100), (.unspecified, 40)] ∧
      ∀ μ, (m.run toCollector).onTheWay minTemplateId μ .unspecified = 0 ∧
        recordsLoad μ .unspecified ((m.run toCollector).gateway.collected minTemplateId)
          = μ.of 140 2 := by
  obtain ⟨m, hm, hstarted⟩ := started_reporting
  -- the gateway is not run: it is enough that what it gets is a message that does not overflow
  have hfirst : reporting.map (fun m => (decide (m.Lossless toGateway),
      (m.run toGateway).aggregator.outlet.inFlight.length,
      (m.run toGateway).aggregator.outlet.inFlight.all fun d =>
        (CompactMessage.parse d.payload).isOk && !GatewayNode.overflows d.payload))
      = some (true, 2, true) := by
    decide +kernel
  have hobserved : reporting.map (fun m => m.observations toCollector)
      = some [(.unspecified, 100), (.unspecified, 40)] := by
    decide +kernel
  have hway : reporting.map (fun m => (m.run toCollector).onTheWay minTemplateId .bytes .unspecified
      + (m.run toCollector).onTheWay minTemplateId .packets .unspecified) = some 0 := by
    decide +kernel
  rw [hm, Option.map_some, Option.some.injEq] at hfirst hobserved hway
  simp only [Prod.mk.injEq, decide_eq_true_eq, List.all_eq_true, Bool.and_eq_true,
    Bool.not_eq_true'] at hfirst
  obtain ⟨htop, hlength, hpass⟩ := hfirst
  have hcap := (run_load hstarted.inv.1 toGateway htop .bytes .unspecified).1.gateway.capacity
  have hdrain := lossless_drain 0 .unspecified htop.fits_run hcap hpass
  rw [hlength] at hdrain
  have hl : m.Lossless toCollector := lossless_append.mpr ⟨htop, hdrain⟩
  refine ⟨m, hstarted, hl, hobserved, fun μ => ?_⟩
  have hzero : (m.run toCollector).onTheWay minTemplateId μ .unspecified = 0 := by
    cases μ
    · exact (Nat.add_eq_zero_iff.mp hway).1
    · exact (Nat.add_eq_zero_iff.mp hway).2
  have hall := conservation hstarted toCollector hl μ .unspecified
  change _ = (m.run toCollector).onTheWay minTemplateId μ .unspecified
    + recordsLoad μ .unspecified ((m.run toCollector).gateway.collected minTemplateId) at hall
  rw [hobserved, hzero, Nat.zero_add] at hall
  refine ⟨hzero, hall.symm.trans ?_⟩
  cases μ <;> rfl

end Mesh

end FlowExport
