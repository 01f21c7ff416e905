/-
# Receiving with every operation checked

What reaches a node from the mesh is read, and then merged or expanded.  `Checked.Aggregator` is an
aggregator whose pending messages lie in places set aside, and its receiving is put together from
the checked readers and the checked storage; `gatewayReceive` is the receiving of a gateway, from
the checked readers and the checked writers.  Both report the front of a payload that is dropped,
which is a range as well.

A gateway needs no invariant: whatever its state, no datagram stops it (`gatewayReceive_eq`).  An
aggregator needs its storage to be sound.  It starts so (`ofNode_start`), every event keeps it so
(`handle_does`), and so no run of an aggregator that was started from a valid configuration ever
stops (`run_does`).  An aggregator merges its own messages like those of its children, forwards what
it holds and gives it up, so the ticks of a run are checked where they touch the storage; how the
node writes its own message is not part of receiving.
-/
import FlowExport.Proofs.Checked.Storage
import FlowExport.Proofs.Checked.Writing
import FlowExport.Proofs.Node.Aggregator

namespace FlowExport.Checked

/-! ## 1. Writing what a storage holds -/

namespace Storage

/-- **Writes what is held**, one set for each place in use. -/
def write (s : Storage) : Kind → Step Unit
  | .template => fun d => do
    let slots ← s.templates.inUse
    fillAll (slots.map fun slot => addPieces slot.template slot.fields [slot.specifiers]) d
  | .data => fun d => do
    let slots ← s.data.inUse
    fillAll (slots.map fun slot => addPieces slot.template slot.count [slot.bytes]) d

theorem write_eq {s : Storage} (h : s.Bounded) (kind : Kind) (d : Draft) :
    s.write kind d = some ((match kind with
      | .template => s.held.writeTemplates
      | .data => s.held.writeData) d) := by
  cases kind with
  | template =>
    rw [write, Places.inUse_eq h.templates]
    exact fillAll_eq (fun slot _ d => addPieces_eq slot.template slot.fields [slot.specifiers] d) d
  | data =>
    rw [write, Places.inUse_eq h.data]
    exact fillAll_eq (fun slot _ d => addPieces_eq slot.template slot.count [slot.bytes] d) d

end Storage

/-! ## 2. Aggregators -/

/-- The front of a dropped payload, as it is reported. -/
def reportedFront (payload : List UInt8) : Option (List UInt8) :=
  slice payload 0 (min payload.length 16)

theorem reportedFront_eq (payload : List UInt8) :
    reportedFront payload = some (payload.take (min payload.length 16)) :=
  slice_front (Nat.min_le_left _ _)

/-- **An aggregator with its places set aside.** -/
structure Aggregator (τ : Type) where
  outlet : Outlet τ
  own : LocalExport
  scratch : Buffer
  storage : Storage
  schedule : Schedule

namespace Aggregator

variable {τ : Type}

/-- **The aggregator, seen without its free places.** -/
def node (n : Aggregator τ) : AggregatorNode τ :=
  ⟨n.outlet, n.own, n.scratch, n.storage.held, n.schedule⟩

/-- A new node with all its places free. -/
def ofNode (n : AggregatorNode τ) : Aggregator τ :=
  ⟨n.outlet, n.own, n.scratch, .empty n.aggregation.maxTemplates n.aggregation.maxMessage,
    n.schedule⟩

/-- Merges a payload. -/
def mergePayload (n : Aggregator τ) (payload : List UInt8) :
    Option (Except CodecError Nat × Aggregator τ) := do
  match ← parse payload with
  | .error e => return (.error e, n)
  | .ok message =>
    let (outcome, storage) ← n.storage.merge message
    return (outcome, { n with storage })

/-- Counts a dropped payload. -/
def drop (n : Aggregator τ) : Aggregator τ :=
  { n with outlet := { n.outlet with counters := n.outlet.counters.drop } }

/-- **One datagram from a child**; the front of one that is dropped is reported. -/
def receive (n : Aggregator τ) (payload : List UInt8) : Option (Aggregator τ) := do
  match ← n.mergePayload payload with
  | (.ok _, n) => return n
  | (.error _, n) =>
    let _ ← reportedFront payload
    return n.drop

/-- Merges the node's own templates or records like a child's payload. -/
def mergeOwn (n : Aggregator τ) (kind : Kind) (time : UInt32) :
    Option (Except CodecError Nat × Aggregator τ) :=
  let process : Exporter := { domain := n.outlet.exporter.domain }
  let (written, scratch, _) :=
    Draft.compose n.scratch process .compact kind time (n.own.write n.outlet.counters kind)
  let n := { n with scratch }
  match written with
  | .error e => some (.error e, n)
  | .ok payload => n.mergePayload payload

/-- Merges the node's own templates if they are due. -/
def addTemplates (n : Aggregator τ) (time : UInt32) : Option (Aggregator τ) := do
  if n.schedule.isDue then
    let (_, n') ← n.mergeOwn .template time
    return { n' with schedule := n.schedule.advance }
  else return { n with schedule := n.schedule.advance }

/-- Merges the node's own records if there are any. -/
def addData (n : Aggregator τ) (time : UInt32) : Option (Aggregator τ) := do
  if n.own.hasData then
    match ← n.mergeOwn .data time with
    | (.ok _, n) => return n
    | (.error _, n) => return n.drop
  else return n

/-- One observation. -/
def observe (n : Aggregator τ) (destination : Address) (bytes : UInt64) : Aggregator τ :=
  let (_, own, counters) := n.own.observe n.outlet.counters destination bytes
  { n with own, outlet := { n.outlet with counters } }

/-- **A step that does not stop**, keeps the storage sound, and does to the node what is
expected. -/
def Does (result : Option (Aggregator τ)) (expected : AggregatorNode τ) : Prop :=
  ∃ n', result = some n' ∧ n'.storage.Sound ∧ n'.node = expected

/-- **An aggregator that was started** has all its places free, and its storage is sound. -/
theorem ofNode_start {config : Config} {transport : τ} {n₀ : Node τ}
    (hr : config.node.role = .aggregator) (h : Node.start config transport = .ok n₀) :
    ∃ n, n₀ = .aggregator n ∧ (ofNode n).node = n ∧ (ofNode n).storage.Sound := by
  obtain ⟨hin, own, parent, -, -, hn₀⟩ := Node.start_aggregator hr h
  refine ⟨_, hn₀, ?_, Storage.sound_empty _ (Nat.le_trans (by decide) hin.message_ge)⟩
  simp only [ofNode, node, Storage.held_empty]
  rfl

section Merging

variable {n : Aggregator τ} (h : n.storage.Sound)

include h

theorem mergePayload_eq (payload : List UInt8) : ∃ n',
    n.mergePayload payload = some ((n.node.mergePayload payload).1, n') ∧ n'.storage.Sound ∧
      n'.node = (n.node.mergePayload payload).2 := by
  unfold Aggregator.mergePayload AggregatorNode.mergePayload
  rw [parse_eq, Option.bind_eq_bind, Option.bind_some]
  cases hp : CompactMessage.parse payload with
  | error e => exact ⟨n, rfl, h, rfl⟩
  | ok m =>
    obtain ⟨storage, hs, hsound, hheld⟩ := Storage.merge_eq h hp
    refine ⟨{ n with storage }, ?_, hsound, ?_⟩
    · simp only [hs]
      rfl
    · simp only [node, hheld]

/-- **No datagram stops an aggregator** with a sound storage. -/
theorem receive_does (payload : List UInt8) : Does (n.receive payload) (n.node.receive payload) := by
  obtain ⟨n', hn', hsound, hnode⟩ := mergePayload_eq h payload
  unfold Aggregator.receive AggregatorNode.receive
  rw [hn', Option.bind_eq_bind, Option.bind_some]
  cases hm : n.node.mergePayload payload with
  | mk outcome merged =>
    rw [hm] at hnode
    cases outcome with
    | error e =>
      refine ⟨n'.drop, ?_, hsound, congrArg AggregatorNode.drop hnode⟩
      simp only [reportedFront_eq]
      rfl
    | ok k => exact ⟨n', rfl, hsound, hnode⟩

theorem mergeOwn_eq (kind : Kind) (time : UInt32) : ∃ n',
    n.mergeOwn kind time = some ((n.node.mergeOwn kind time).1, n') ∧ n'.storage.Sound ∧
      n'.node = (n.node.mergeOwn kind time).2 := by
  simp only [Aggregator.mergeOwn, AggregatorNode.mergeOwn, node]
  rcases Draft.compose n.scratch { domain := n.outlet.exporter.domain } .compact kind time
    (n.own.write n.outlet.counters kind) with ⟨e | payload, scratch, exporter⟩
  · exact ⟨{ n with scratch }, rfl, h, rfl⟩
  · exact mergePayload_eq (n := { n with scratch }) h payload

theorem addTemplates_does (time : UInt32) :
    Does (n.addTemplates time) (n.node.addTemplates time) := by
  unfold Aggregator.addTemplates AggregatorNode.addTemplates
  change Does _ { (if n.schedule.isDue then (n.node.mergeOwn .template time).2 else n.node) with
    schedule := n.schedule.advance }
  cases n.schedule.isDue with
  | false => exact ⟨{ n with schedule := n.schedule.advance }, rfl, h, rfl⟩
  | true =>
    obtain ⟨n', hn', hsound, hnode⟩ := mergeOwn_eq h .template time
    refine ⟨{ n' with schedule := n.schedule.advance }, ?_, hsound, ?_⟩
    · rw [if_pos rfl, hn']
      rfl
    · rw [if_pos rfl, ← hnode]
      rfl

theorem addData_does (time : UInt32) : Does (n.addData time) (n.node.addData time) := by
  unfold Aggregator.addData AggregatorNode.addData
  change Does _ (if n.own.hasData then _ else n.node)
  cases n.own.hasData with
  | false => exact ⟨n, rfl, h, rfl⟩
  | true =>
    obtain ⟨n', hn', hsound, hnode⟩ := mergeOwn_eq h .data time
    rw [if_pos rfl, if_pos rfl, hn']
    cases hm : n.node.mergeOwn .data time with
    | mk outcome merged =>
      rw [hm] at hnode
      cases outcome with
      | error e => exact ⟨n'.drop, rfl, hsound, congrArg AggregatorNode.drop hnode⟩
      | ok k => exact ⟨n', rfl, hsound, hnode⟩

end Merging

/-! ## 3. Runs of an aggregator -/

variable [Transport τ]

/-- Sends what has been merged. -/
def forward (n : Aggregator τ) (kind : Kind) (time : UInt32) : Option (Aggregator τ) := do
  let written ← compose n.outlet.buffer n.outlet.exporter .compact kind time (n.storage.write kind)
  return { n with outlet := (n.outlet.post written).2 }

/-- Sends what has been merged, if so many places in use are any. -/
def forwardUsed (n : Aggregator τ) (active : Nat) (kind : Kind) (time : UInt32) :
    Option (Aggregator τ) :=
  if active = 0 then some n else n.forward kind time

/-- Forwards what is pending and gives it up. -/
def forwardAll (n : Aggregator τ) (time : UInt32) : Option (Aggregator τ) := do
  let n ← n.forwardUsed n.storage.templates.active .template time
  let n ← n.forwardUsed n.storage.data.active .data time
  let storage ← n.storage.reset
  return { n with storage }

/-- One export. -/
def tick (n : Aggregator τ) (time : UInt32) : Option (Aggregator τ) := do
  let n ← n.addTemplates time
  let n ← n.addData time
  forwardAll { n with own := n.own.flush } time

/-- **Handles one event.** -/
def handle (n : Aggregator τ) : NodeEvent → Option (Aggregator τ)
  | .tick time => n.tick time
  | .datagram payload _ => n.receive payload
  | .traffic destination bytes => some (n.observe destination bytes)

/-- **Handles events in order.** -/
def run (n : Aggregator τ) (events : List (UInt32 × NodeEvent)) : Option (Aggregator τ) :=
  events.foldlM (fun n event => n.handle event.2) n

section Events

variable {n : Aggregator τ} (h : n.storage.Sound)

include h

theorem forward_does (kind : Kind) (time : UInt32) :
    Does (n.forward kind time) (n.node.forward kind time) := by
  have hwritten := compose_eq (Storage.write_eq h.bounded kind) n.outlet.buffer
    n.outlet.exporter .compact kind time
  rw [Aggregator.forward, hwritten]
  exact ⟨_, rfl, h, rfl⟩

/-- What is in use is forwarded, and nothing is where nothing is in use. -/
theorem forwardUsed_does {active : Nat} {isEmpty : Bool} (hempty : isEmpty = true ↔ active = 0)
    (kind : Kind) (time : UInt32) :
    Does (n.forwardUsed active kind time)
      (if isEmpty then n.node else n.node.forward kind time) := by
  unfold forwardUsed
  by_cases hzero : active = 0
  · rw [if_pos hzero, if_pos (hempty.mpr hzero)]
    exact ⟨n, rfl, h, rfl⟩
  · rw [if_neg hzero, if_neg (mt hempty.mp hzero)]
    exact forward_does h kind time

theorem forwardAll_does (time : UInt32) : Does (n.forwardAll time) (n.node.forwardAll time) := by
  obtain ⟨n₁, hn₁, hsound₁, hnode₁⟩ :=
    forwardUsed_does h (Places.isEmpty_held h.bounded.templates) .template time
  obtain ⟨n₂, hn₂, hsound₂, hnode₂⟩ : Does (n₁.forwardUsed n₁.storage.data.active .data time)
      (if n₁.node.aggregation.isEmpty then n₁.node else n₁.node.forward .data time) :=
    forwardUsed_does hsound₁ (Places.isEmpty_held hsound₁.bounded.data) .data time
  obtain ⟨storage, hs, hsound, hheld⟩ := Storage.reset_eq hsound₂
  refine ⟨{ n₂ with storage }, ?_, hsound, ?_⟩
  · rw [Aggregator.forwardAll, hn₁, Option.bind_eq_bind, Option.bind_some, hn₂,
      Option.bind_eq_bind, Option.bind_some, hs]
    rfl
  · have hlast : node { n₂ with storage }
        = { n₂.node with aggregation := n₂.node.aggregation.reset } := by
      simp only [node, hheld]
    rw [hnode₁] at hnode₂
    rw [hlast, hnode₂]
    rfl

/-- **A tick never stops an aggregator** where it touches the storage. -/
theorem tick_does (time : UInt32) : Does (n.tick time) (n.node.tick time) := by
  obtain ⟨n₁, hn₁, hsound₁, hnode₁⟩ := addTemplates_does h time
  obtain ⟨n₂, hn₂, hsound₂, hnode₂⟩ := addData_does hsound₁ time
  obtain ⟨n₃, hn₃, hsound₃, hnode₃⟩ :=
    forwardAll_does (n := { n₂ with own := n₂.own.flush }) hsound₂ time
  refine ⟨n₃, ?_, hsound₃, ?_⟩
  · rw [Aggregator.tick, hn₁, Option.bind_eq_bind, Option.bind_some, hn₂, Option.bind_some, hn₃]
  · rw [hnode₃, AggregatorNode.tick, ← hnode₁, ← hnode₂]
    rfl

/-- **No event stops an aggregator** with a sound storage. -/
theorem handle_does (clock : UInt32) (event : NodeEvent) : ∃ n', n.handle event = some n' ∧
    n'.storage.Sound ∧ ((Node.aggregator n.node).handle clock event).2 = .aggregator n'.node := by
  cases event with
  | tick time =>
    obtain ⟨n', hn', hsound, hnode⟩ := tick_does h time
    exact ⟨n', hn', hsound, congrArg Node.aggregator hnode.symm⟩
  | datagram payload sender =>
    obtain ⟨n', hn', hsound, hnode⟩ := receive_does h payload
    exact ⟨n', hn', hsound, congrArg Node.aggregator hnode.symm⟩
  | traffic destination bytes => exact ⟨n.observe destination bytes, rfl, h, rfl⟩

/-- **No run stops an aggregator.** -/
theorem run_does (events : List (UInt32 × NodeEvent)) : ∃ n', n.run events = some n' ∧
    n'.storage.Sound ∧ (Node.aggregator n.node).run events = .aggregator n'.node := by
  induction events generalizing n with
  | nil => exact ⟨n, rfl, h, rfl⟩
  | cons event events ih =>
    obtain ⟨n₁, hn₁, hsound₁, hnode₁⟩ := handle_does h event.1 event.2
    obtain ⟨n₂, hn₂, hsound₂, hnode₂⟩ := ih hsound₁
    refine ⟨n₂, ?_, hsound₂, ?_⟩
    · rw [Aggregator.run, List.foldlM_cons, hn₁]
      exact hn₂
    · rw [Node.run, List.foldl_cons, hnode₁]
      exact hnode₂

end Events

end Aggregator

/-! ## 4. Gateways -/

section Gateway

variable {τ : Type} [Transport τ]

/-- **One datagram from the mesh**; the front of one that is dropped is reported. -/
def gatewayReceive (n : GatewayNode τ) (clock : UInt32) (payload : List UInt8) (sender : Address) :
    Option (GatewayNode τ) := do
  match ← parse payload with
  | .error _ =>
    let _ ← reportedFront payload
    return n.drop
  | .ok message =>
    let written ← expandMessage message n.outlet.buffer n.outlet.exporter clock (some sender)
    match n.outlet.post written with
    | (.ok (), outlet) => return ⟨outlet⟩
    | (.error _, outlet) =>
      let _ ← reportedFront payload
      return GatewayNode.drop ⟨outlet⟩

/-- **No datagram stops a gateway**, whatever its state. -/
theorem gatewayReceive_eq (n : GatewayNode τ) (clock : UInt32) (payload : List UInt8)
    (sender : Address) :
    gatewayReceive n clock payload sender = some (n.receive clock payload sender) := by
  rw [gatewayReceive, parse_eq, Option.bind_eq_bind, Option.bind_some]
  unfold GatewayNode.receive
  cases hp : CompactMessage.parse payload with
  | error e =>
    simp only [reportedFront_eq]
    rfl
  | ok m =>
    simp only [expandMessage_eq hp, reportedFront_eq, Option.bind_eq_bind, Option.bind_some]
    rcases n.outlet.post (m.expand n.outlet.buffer n.outlet.exporter clock (some sender)) with
      ⟨e | ⟨⟩, outlet⟩
    · rfl
    · rfl

end Gateway

/-! ## 5. Everything that is received -/

/-- **Nothing received stops a node.**  With every index, range, difference and quotient checked,
reading a message of either encoding comes to what it comes to without the checks, for all octets;
so do the sets, records, specifiers and counts of a compact message that was accepted, whatever it
carries, and the records and fields of a data body under any template.  In every state that an
aggregator reaches from a valid configuration, every datagram from every sender is handled to its
end, with all that it does to the places set aside for merging; and so it is by a gateway in any
state. -/
theorem receiving_never_stops {τ : Type} [Transport τ] :
    (∀ bytes : List UInt8, decode bytes = some (FullMessage.decode bytes)) ∧
    (∀ bytes : List UInt8, parse bytes = some (CompactMessage.parse bytes)) ∧
    (∀ (bytes : List UInt8) (m : CompactMessage), CompactMessage.parse bytes = .ok m →
      sets m.payload = some m.sets ∧ recordCount m = some m.recordCount ∧
      ∀ s ∈ m.sets, recordWidth s = some s.recordWidth ∧ records s = some s.records ∧
        specifiers s = some s.specifiers) ∧
    (∀ (t : TemplateRecord) (body : List UInt8),
      templateRecordsOf t body = some (t.records body) ∧
      ∀ records : List (List UInt8), t.records body = .ok records → ∀ record ∈ records,
        fieldValuesFrom record 0 t.fields = some (t.fieldValues record)) ∧
    (∀ (config : Config) (transport : τ) (n₀ : Node τ), config.node.role = .aggregator →
      Node.start config transport = .ok n₀ → ∃ started, n₀ = .aggregator started ∧
      ∀ events : List (UInt32 × NodeEvent), ∃ n,
        (Aggregator.ofNode started).run events = some n ∧ n₀.run events = .aggregator n.node ∧
        ∀ (payload : List UInt8) (sender : Address), ∃ n',
          n.handle (.datagram payload sender) = some n' ∧ n'.node = n.node.receive payload) ∧
    (∀ (n : GatewayNode τ) (clock : UInt32) (payload : List UInt8) (sender : Address),
      gatewayReceive n clock payload sender = some (n.receive clock payload sender)) := by
  refine ⟨decode_eq, parse_eq, ?_, ?_, ?_, gatewayReceive_eq⟩
  · intro bytes m hp
    exact ⟨sets_of_parse hp, recordCount_of_parse hp,
      fun s _ => ⟨recordWidth_eq s, records_eq s, specifiers_eq s⟩⟩
  · intro t body
    exact ⟨templateRecordsOf_eq t body, fun records h record hr =>
      fieldValuesFrom_of_mem_records h hr⟩
  · intro config transport n₀ hr h
    obtain ⟨started, hn₀, hnode, hsound⟩ := Aggregator.ofNode_start hr h
    refine ⟨started, hn₀, fun events => ?_⟩
    obtain ⟨n, hrun, hsound', hreached⟩ := Aggregator.run_does hsound events
    rw [hnode, ← hn₀] at hreached
    refine ⟨n, hrun, hreached, fun payload sender => ?_⟩
    obtain ⟨n', hn', -, hnode'⟩ := Aggregator.receive_does hsound' payload
    exact ⟨n', hn', hnode'⟩

/-- One set of two records for the template 257, and an octet behind the message. -/
def twoRecords : List UInt8 :=
  [0xA2, 0, 7, 0, 15, 1, 2, 0, 10, 1, 2, 3, 4, 5, 6, 0xFF]

/-- The sets of a message that is accepted are cut; where the length of a set is less than its
header and no message was accepted, cutting stops.  An aggregator takes the message twice, a
payload that is none, and a tick between. -/
theorem receiving_never_stops_twoRecords :
    sets [1, 2, 0, 10, 1, 2, 3, 4, 5, 6] = some [⟨257, 2, [1, 2, 3, 4, 5, 6]⟩] ∧
    sets [1, 2, 0, 3] = none ∧
    ∃ started, Node.start (Node.reportingConfig .aggregator) ({} : Recorder)
        = .ok (.aggregator started) ∧
      ∃ n, (Aggregator.ofNode started).run [(0, .datagram twoRecords .unspecified), (0, .tick 0),
        (0, .datagram twoRecords .unspecified)] = some n ∧
        ∃ n', n.handle (.datagram [1, 2, 0, 3] .unspecified) = some n' := by
  obtain ⟨-, -, hsets, -, hrun, -⟩ := receiving_never_stops (τ := Recorder)
  have hparse : CompactMessage.parse twoRecords
      = .ok ⟨⟨.data, 7, 15⟩, [1, 2, 0, 10, 1, 2, 3, 4, 5, 6]⟩ := by cbv
  have hcut : CompactMessage.sets ⟨⟨.data, 7, 15⟩, [1, 2, 0, 10, 1, 2, 3, 4, 5, 6]⟩
      = [⟨257, 2, [1, 2, 3, 4, 5, 6]⟩] := by cbv
  obtain ⟨n₀, hstart⟩ := Node.start_reportingConfig .aggregator (by decide) ({} : Recorder)
  obtain ⟨started, rfl, hall⟩ := hrun _ _ n₀ rfl hstart
  obtain ⟨n, hn, -, hnext⟩ := hall [(0, .datagram twoRecords .unspecified), (0, .tick 0),
    (0, .datagram twoRecords .unspecified)]
  obtain ⟨n', hn', -⟩ := hnext [1, 2, 0, 3] .unspecified
  refine ⟨?_, by cbv, started, hstart, n, hn, n', hn'⟩
  rw [← hcut]
  exact (hsets twoRecords _ hparse).1

end FlowExport.Checked
