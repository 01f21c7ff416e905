/-
# Runs, and what they hand to the transport

A node's transport may take or refuse each datagram as it likes.  `Journal` puts a journal in
front of any transport: what it is handed is kept, taken or not, and what becomes of it is left to
the transport behind (`Node.forget_run`: the node does the same with it as without).  So a
statement about journals over all transports is one about every pattern of outcomes.

`Node.run` handles events in order, each at its own reading of the clock, and `Node.run_induction`
is the induction over a run that carries its history.  `Outlet.Sends` says what one message does
to an outlet; `Outlet.Numbered` is what it leaves true: messages are numbered from one without a
gap, and each is counted as sent or as failed.
-/
import FlowExport.Node.Basic
import FlowExport.Proofs.Wire.Reading

namespace FlowExport

/-! ## 1. Journals -/

/-- **A transport with a journal** of what it was handed, taken or not. -/
structure Journal (τ : Type) where
  transport : τ
  handed : List Datagram := []

variable {τ : Type}

instance [Transport τ] : Transport (Journal τ) where
  send j datagram :=
    let (taken, transport) := Transport.send j.transport datagram
    (taken, ⟨transport, j.handed ++ [datagram]⟩)

namespace Counters

/-- Each attempt to send is counted once. -/
theorem sent_add_failed_send (c : Counters) (taken : Bool) :
    (c.send taken).sent + (c.send taken).failed = c.sent + c.failed + 1 := by
  cases taken with
  | true =>
    change c.sent + 1 + c.failed = c.sent + c.failed + 1
    rw [UInt32.add_assoc, UInt32.add_comm 1, ← UInt32.add_assoc]
  | false => exact (UInt32.add_assoc _ _ _).symm

end Counters

namespace Outlet

/-- What was handed to the transport, in order. -/
def handed (o : Outlet (Journal τ)) : List Datagram :=
  o.transport.handed

/-- **One message**: `o'` is `o` after `payload` was handed to the transport. -/
structure Sends (o o' : Outlet (Journal τ)) (payload : List UInt8) : Prop where
  handed : o'.handed = o.handed ++ [⟨payload, o.destination⟩]
  destination : o'.destination = o.destination
  exporter : o'.exporter = o.exporter.advance
  capacity : o'.buffer.capacity = o.buffer.capacity
  sent_add_failed : o'.counters.sent + o'.counters.failed
    = o.counters.sent + o.counters.failed + 1
  dropped : o'.counters.dropped = o.counters.dropped

/-- **A message that was written is handed on**: the outlet then has the buffer it was written
into and the next number. -/
def hand [Transport τ] (o : Outlet τ) (buffer : Buffer) (payload : List UInt8) : Outlet τ :=
  { o with buffer, exporter := o.exporter.advance }.send payload

theorem post_ok [Transport τ] (o : Outlet τ) (payload : List UInt8) (buffer : Buffer) :
    o.post (.ok payload, buffer, o.exporter.advance) = (.ok (), o.hand buffer payload) := rfl

/-- **`o'` is `o` after `payload` was written and handed on.** -/
def Hands [Transport τ] (o o' : Outlet τ) (payload : List UInt8) : Prop :=
  ∃ buffer : Buffer, buffer.capacity = o.buffer.capacity ∧ o' = o.hand buffer payload

theorem Hands.capacity [Transport τ] {o o' : Outlet τ} {payload : List UInt8}
    (h : Hands o o' payload) : o'.buffer.capacity = o.buffer.capacity := by
  obtain ⟨buffer, hb, rfl⟩ := h
  exact hb

theorem Hands.dropped [Transport τ] {o o' : Outlet τ} {payload : List UInt8}
    (h : Hands o o' payload) : o'.counters.dropped = o.counters.dropped := by
  obtain ⟨buffer, -, rfl⟩ := h
  simp only [hand, send, Counters.send]
  split <;> rfl

theorem Hands.sends [Transport τ] {o o' : Outlet (Journal τ)} {payload : List UInt8}
    (h : Hands o o' payload) : Sends o o' payload := by
  have hdropped := h.dropped
  obtain ⟨buffer, hb, rfl⟩ := h
  exact ⟨rfl, rfl, rfl, hb, Counters.sent_add_failed_send _ _, hdropped⟩

/-- **Numbers without a gap**: the next message has the number after the last one handed on, and
each of them is counted as sent or as failed. -/
structure Numbered (o : Outlet (Journal τ)) : Prop where
  sequence : o.exporter.sequence = UInt32.ofNat (1 + o.handed.length)
  sent_add_failed : o.counters.sent + o.counters.failed = UInt32.ofNat o.handed.length

namespace Numbered

variable {o o' : Outlet (Journal τ)}

theorem ofTransport (transport : τ) (destination : Endpoint) (domain : UInt32)
    (capacity : Nat) :
    Numbered (Outlet.ofTransport (⟨transport, []⟩ : Journal τ) destination domain capacity) :=
  ⟨rfl, rfl⟩

theorem sends {payload : List UInt8} (h : Numbered o) (hs : Sends o o' payload) :
    Numbered o' := by
  have hlen : o'.handed.length = o.handed.length + 1 := by
    rw [hs.handed, List.length_append, List.length_singleton]
  constructor
  · rw [hs.exporter, hlen, ← Nat.add_assoc, UInt32.ofNat_add, ← h.sequence]
    rfl
  · rw [hs.sent_add_failed, h.sent_add_failed, hlen, UInt32.ofNat_add]
    rfl

/-- What an outlet keeps of its numbering depends on these parts only. -/
theorem congr (h : Numbered o) (hn : o'.handed = o.handed)
    (hx : o'.exporter.sequence = o.exporter.sequence)
    (hs : o'.counters.sent = o.counters.sent) (hf : o'.counters.failed = o.counters.failed) :
    Numbered o' :=
  ⟨by rw [hx, hn, h.sequence], by rw [hs, hf, hn, h.sent_add_failed]⟩

end Numbered

/-- **A journal of numbered messages**: none longer than `limit`, and each read back under its
place in the journal, counted from one. -/
structure Logged (encoding : Encoding) (limit : Nat) (o : Outlet (Journal τ)) : Prop
    extends Numbered o where
  message : ∀ (k : Nat) (d : Datagram), o.handed[k]? = some d →
    d.payload.length ≤ limit ∧ encoding.ReadsNumber d.payload (1 + k)

namespace Logged

variable {encoding : Encoding} {limit : Nat} {o o' : Outlet (Journal τ)}

theorem ofTransport (encoding : Encoding) (limit : Nat) (transport : τ) (destination : Endpoint)
    (domain : UInt32) (capacity : Nat) : Logged encoding limit
      (Outlet.ofTransport (⟨transport, []⟩ : Journal τ) destination domain capacity) :=
  ⟨.ofTransport transport destination domain capacity, fun k d hk => by
    simp [handed, Outlet.ofTransport] at hk⟩

theorem sends {payload : List UInt8} (h : Logged encoding limit o) (hs : Sends o o' payload)
    (hl : payload.length ≤ limit)
    (hn : encoding.ReadsNumber payload (1 + o.handed.length)) : Logged encoding limit o' := by
  refine ⟨h.toNumbered.sends hs, fun k d hk => ?_⟩
  rw [hs.handed] at hk
  rcases Nat.lt_or_ge k o.handed.length with hlt | hge
  · rw [List.getElem?_append_left hlt] at hk
    exact h.message k d hk
  · rw [List.getElem?_append_right hge] at hk
    obtain ⟨hlt, hd⟩ := List.getElem?_eq_some_iff.mp hk
    rw [List.length_singleton] at hlt
    have hkeq : k = o.handed.length := by omega
    have hd : d = ⟨payload, o.destination⟩ := by simpa using hd.symm
    rw [hd, hkeq]
    exact ⟨hl, hn⟩

theorem congr (h : Logged encoding limit o) (hn : o'.handed = o.handed)
    (hx : o'.exporter.sequence = o.exporter.sequence)
    (hs : o'.counters.sent = o.counters.sent) (hf : o'.counters.failed = o.counters.failed) :
    Logged encoding limit o' :=
  ⟨h.toNumbered.congr hn hx hs hf, by rw [hn]; exact h.message⟩

end Logged

/-- **One message or none**: where it is due, `o'` is `o` after a message was handed on that is no
longer than `limit` and reads as it should; where not, it is `o`. -/
structure HandsIf [Transport τ] (due : Prop) (limit : Nat) (reads : List UInt8 → Prop)
    (o o' : Outlet τ) : Prop where
  hands : due → ∃ payload, Hands o o' payload ∧ payload.length ≤ limit ∧ reads payload
  rests : ¬due → o' = o

namespace HandsIf

variable {due : Prop} {limit : Nat} {reads : List UInt8 → Prop}

theorem capacity [Transport τ] {o o' : Outlet τ} (h : HandsIf due limit reads o o') :
    o'.buffer.capacity = o.buffer.capacity := by
  by_cases hd : due
  · obtain ⟨payload, hh, -, -⟩ := h.hands hd
    exact hh.capacity
  · rw [h.rests hd]

theorem dropped [Transport τ] {o o' : Outlet τ} (h : HandsIf due limit reads o o') :
    o'.counters.dropped = o.counters.dropped := by
  by_cases hd : due
  · obtain ⟨payload, hh, -, -⟩ := h.hands hd
    exact hh.dropped
  · rw [h.rests hd]

variable [Transport τ] {o o' : Outlet (Journal τ)} (h : HandsIf due limit reads o o')

include h

/-- What that does to a journal. -/
theorem handed : ∃ sent : List Datagram, o'.handed = o.handed ++ sent ∧
    (due → ∃ payload, sent = [⟨payload, o.destination⟩] ∧ reads payload) ∧
    (¬due → sent = []) := by
  by_cases hd : due
  · obtain ⟨payload, hh, -, hr⟩ := h.hands hd
    exact ⟨_, hh.sends.handed, fun _ => ⟨payload, rfl, hr⟩, fun hn => absurd hd hn⟩
  · exact ⟨[], by rw [h.rests hd, List.append_nil], fun hd' => absurd hd' hd, fun _ => rfl⟩

theorem destination : o'.destination = o.destination := by
  by_cases hd : due
  · obtain ⟨payload, hh, -, -⟩ := h.hands hd
    exact hh.sends.destination
  · rw [h.rests hd]

theorem logged {encoding : Encoding} (hl : Logged encoding limit o)
    (hn : ∀ payload, reads payload → encoding.ReadsNumber payload (1 + o.handed.length)) :
    Logged encoding limit o' := by
  by_cases hd : due
  · obtain ⟨payload, hh, hle, hr⟩ := h.hands hd
    exact hl.sends hh.sends hle (hn payload hr)
  · rw [h.rests hd]
    exact hl

end HandsIf

/-- A template message or none leaves a journal of numbered messages. -/
theorem Logged.definitions [Transport τ] {due : Prop} {limit : Nat} {encoding : Encoding}
    {definitions : List (UInt16 × List FieldSpecifier)} {o o' : Outlet (Journal τ)}
    (hl : Logged encoding limit o) (h : HandsIf due limit
      (encoding.ReadsDefinitions · o.exporter.sequence definitions) o o') :
    Logged encoding limit o' :=
  h.logged hl fun payload hr => by
    rw [hl.sequence] at hr
    exact hr.number

/-- A data message or none leaves a journal of numbered messages. -/
theorem Logged.records [Transport τ] {due : Prop} {limit : Nat} {encoding : Encoding}
    {sets : List (UInt16 × List (List UInt8))} {o o' : Outlet (Journal τ)}
    (hl : Logged encoding limit o) (h : HandsIf due limit
      (encoding.ReadsRecords · o.exporter.sequence sets) o o') :
    Logged encoding limit o' :=
  h.logged hl fun payload hr => by
    rw [hl.sequence] at hr
    exact hr.number

/-- **A message that is composed is handed on.** -/
theorem emit_ok [Transport τ] {o : Outlet τ} {encoding : Encoding} {kind : Kind} {time : UInt32}
    {fill : Draft.Step Unit} {payload : List UInt8} {buffer : Buffer}
    (h : Draft.compose o.buffer o.exporter encoding kind time fill
      = (.ok payload, buffer, o.exporter.advance)) (hb : buffer.capacity = o.buffer.capacity) :
    (o.emit encoding kind time fill).1 = .ok () ∧
      Hands o (o.emit encoding kind time fill).2 payload := by
  rw [emit, h]
  exact ⟨rfl, buffer, hb, rfl⟩

end Outlet

/-! ## 2. Runs -/

namespace Node

variable [Transport τ]

/-- **Handles events in order**, each at its own reading of the clock. -/
def run (events : List (UInt32 × NodeEvent)) (n : Node τ) : Node τ :=
  events.foldl (fun n event => (n.handle event.1 event.2).2) n

theorem handleAll_eq_run (clock : UInt32) (events : List NodeEvent) (n : Node τ) :
    n.handleAll clock events = n.run (events.map (clock, ·)) := by
  rw [run, List.foldl_map]
  rfl

theorem run_append (past events : List (UInt32 × NodeEvent)) (n : Node τ) :
    n.run (past ++ events) = (n.run past).run events :=
  List.foldl_append

theorem run_concat (past : List (UInt32 × NodeEvent)) (clock : UInt32) (event : NodeEvent)
    (n : Node τ) : n.run (past ++ [(clock, event)]) = ((n.run past).handle clock event).2 := by
  rw [run_append]
  rfl

/-- **Induction over a run**: what holds at the start, and after one more event whenever it holds
before, holds after every run. -/
theorem run_induction {P : List (UInt32 × NodeEvent) → Node τ → Prop} {n : Node τ}
    (start : P [] n) (step : ∀ past clock event, P past (n.run past) →
      P (past ++ [(clock, event)]) ((n.run past).handle clock event).2)
    (events : List (UInt32 × NodeEvent)) : P events (n.run events) := by
  have key : ∀ events past : List (UInt32 × NodeEvent), P past (n.run past) →
      P (past ++ events) (n.run (past ++ events)) := by
    intro events
    induction events with
    | nil =>
      intro past h
      rwa [List.append_nil]
    | cons event events ih =>
      intro past h
      have h' := step past event.1 event.2 h
      rw [← run_concat] at h'
      have h'' := ih _ h'
      rwa [List.append_assoc] at h''
  exact key events [] start

end Node

/-! ## 3. The journal changes nothing -/

section Forget

/-- The outlet without its journal. -/
def Outlet.forget (o : Outlet (Journal τ)) : Outlet τ :=
  ⟨o.transport.transport, o.destination, o.exporter, o.buffer, o.counters⟩

/-- The node without its journal. -/
def StandardNode.forget (n : StandardNode (Journal τ)) : StandardNode τ :=
  ⟨n.outlet.forget, n.encoding, n.own, n.schedule⟩

/-- The node without its journal. -/
def AggregatorNode.forget (n : AggregatorNode (Journal τ)) : AggregatorNode τ :=
  ⟨n.outlet.forget, n.own, n.scratch, n.aggregation, n.schedule⟩

/-- The node without its journal. -/
def GatewayNode.forget (n : GatewayNode (Journal τ)) : GatewayNode τ :=
  ⟨n.outlet.forget⟩

/-- **The node without its journal.** -/
def Node.forget : Node (Journal τ) → Node τ
  | .standard n => .standard n.forget
  | .aggregator n => .aggregator n.forget
  | .gateway n => .gateway n.forget

namespace AggregatorNode

theorem forget_mergePayload (n : AggregatorNode (Journal τ)) (payload : List UInt8) :
    n.forget.mergePayload payload
      = ((n.mergePayload payload).1, (n.mergePayload payload).2.forget) := by
  unfold mergePayload
  cases CompactMessage.parse payload <;> rfl

theorem forget_mergeOwn (n : AggregatorNode (Journal τ)) (kind : Kind) (time : UInt32) :
    n.forget.mergeOwn kind time
      = ((n.mergeOwn kind time).1, (n.mergeOwn kind time).2.forget) := by
  have hx : n.forget.outlet.exporter = n.outlet.exporter := rfl
  have hw : n.forget.own.write n.forget.outlet.counters kind
    = n.own.write n.outlet.counters kind := rfl
  have hs : n.forget.scratch = n.scratch := rfl
  simp only [mergeOwn, hx, hw, hs]
  generalize Draft.compose n.scratch { domain := n.outlet.exporter.domain } .compact kind time
    (n.own.write n.outlet.counters kind) = written
  obtain ⟨outcome | payload, buffer, exporter⟩ := written
  · rfl
  · exact forget_mergePayload { n with scratch := buffer } payload

theorem forget_addTemplates (n : AggregatorNode (Journal τ)) (time : UInt32) :
    (n.addTemplates time).forget = n.forget.addTemplates time := by
  have hdue : n.forget.schedule.isDue = n.schedule.isDue := rfl
  unfold addTemplates
  rw [forget_mergeOwn, hdue]
  cases n.schedule.isDue <;> rfl

theorem forget_addData (n : AggregatorNode (Journal τ)) (time : UInt32) :
    (n.addData time).forget = n.forget.addData time := by
  have hdata : n.forget.own.hasData = n.own.hasData := rfl
  unfold addData
  rw [forget_mergeOwn, hdata]
  obtain ⟨outcome, n'⟩ := n.mergeOwn .data time
  cases n.own.hasData <;> cases outcome <;> rfl

theorem forget_receive (n : AggregatorNode (Journal τ)) (payload : List UInt8) :
    (n.receive payload).forget = n.forget.receive payload := by
  unfold receive
  rw [forget_mergePayload]
  obtain ⟨outcome, n'⟩ := n.mergePayload payload
  cases outcome <;> rfl

end AggregatorNode

variable [Transport τ]

theorem Outlet.forget_post (o : Outlet (Journal τ))
    (written : Except CodecError (List UInt8) × Buffer × Exporter) :
    o.forget.post written = ((o.post written).1, (o.post written).2.forget) := by
  obtain ⟨outcome | payload, buffer, exporter⟩ := written <;> rfl

namespace StandardNode

theorem forget_sendOwn (n : StandardNode (Journal τ)) (kind : Kind) (time : UInt32) :
    (n.sendOwn kind time).forget = n.forget.sendOwn kind time :=
  congrArg (StandardNode.mk ·.2 n.encoding n.own n.schedule) (n.outlet.forget_post _).symm

theorem forget_sendTemplates (n : StandardNode (Journal τ)) (time : UInt32) :
    (n.sendTemplates time).forget = n.forget.sendTemplates time := by
  have hdue : n.forget.schedule.isDue = n.schedule.isDue := rfl
  unfold sendTemplates
  rw [← forget_sendOwn, hdue]
  cases n.schedule.isDue <;> rfl

theorem forget_sendData (n : StandardNode (Journal τ)) (time : UInt32) :
    (n.sendData time).forget = n.forget.sendData time := by
  have hdata : n.forget.own.hasData = n.own.hasData := rfl
  unfold sendData
  rw [← forget_sendOwn, hdata]
  cases n.own.hasData <;> rfl

theorem forget_tick (n : StandardNode (Journal τ)) (time : UInt32) :
    (n.tick time).forget = n.forget.tick time := by
  unfold tick
  rw [← forget_sendTemplates, ← forget_sendData]
  rfl

end StandardNode

namespace AggregatorNode

theorem forget_forward (n : AggregatorNode (Journal τ)) (kind : Kind) (time : UInt32) :
    (n.forward kind time).forget = n.forget.forward kind time :=
  congrArg (AggregatorNode.mk ·.2 n.own n.scratch n.aggregation n.schedule)
    (n.outlet.forget_post _).symm

theorem forget_forwardAll (n : AggregatorNode (Journal τ)) (time : UInt32) :
    (n.forwardAll time).forget = n.forget.forwardAll time := by
  have step : ∀ (b : Bool) (kind : Kind) (m : AggregatorNode (Journal τ)),
      (if b then m else m.forward kind time).forget
        = if b then m.forget else m.forget.forward kind time := by
    intro b kind m
    rw [← forget_forward]
    cases b <;> rfl
  have hagg : ∀ m : AggregatorNode (Journal τ), m.forget.aggregation = m.aggregation :=
    fun _ => rfl
  unfold forwardAll
  simp only [hagg, ← step]
  rfl

theorem forget_tick (n : AggregatorNode (Journal τ)) (time : UInt32) :
    (n.tick time).forget = n.forget.tick time := by
  unfold tick
  rw [← forget_addTemplates, ← forget_addData]
  exact forget_forwardAll _ _

end AggregatorNode

theorem GatewayNode.forget_receive (n : GatewayNode (Journal τ)) (clock : UInt32)
    (payload : List UInt8) (sender : Address) :
    (n.receive clock payload sender).forget = n.forget.receive clock payload sender := by
  unfold receive
  cases CompactMessage.parse payload with
  | error e => rfl
  | ok message =>
    have ho : n.forget.outlet = n.outlet.forget := rfl
    simp only [ho]
    rw [Outlet.forget_post]
    simp only [Outlet.forget]
    obtain ⟨outcome, outlet⟩ := n.outlet.post
      (message.expand n.outlet.buffer n.outlet.exporter clock (some sender))
    cases outcome <;> rfl

namespace Node

theorem forget_handle (n : Node (Journal τ)) (clock : UInt32) (event : NodeEvent) :
    (n.handle clock event).1 = (n.forget.handle clock event).1 ∧
      (n.handle clock event).2.forget = (n.forget.handle clock event).2 := by
  cases n with
  | standard n =>
    cases event with
    | tick time => exact ⟨rfl, congrArg Node.standard (n.forget_tick time)⟩
    | datagram payload sender => exact ⟨rfl, rfl⟩
    | traffic destination bytes => exact ⟨rfl, rfl⟩
  | aggregator n =>
    cases event with
    | tick time => exact ⟨rfl, congrArg Node.aggregator (n.forget_tick time)⟩
    | datagram payload sender => exact ⟨rfl, congrArg Node.aggregator (n.forget_receive payload)⟩
    | traffic destination bytes => exact ⟨rfl, rfl⟩
  | gateway n =>
    cases event with
    | tick time => exact ⟨rfl, rfl⟩
    | datagram payload sender =>
      exact ⟨rfl, congrArg Node.gateway (n.forget_receive clock payload sender)⟩
    | traffic destination bytes => exact ⟨rfl, rfl⟩

/-- **A node does the same with a journal as without**, whatever happens to it. -/
theorem forget_run (events : List (UInt32 × NodeEvent)) (n : Node (Journal τ)) :
    (n.run events).forget = n.forget.run events := by
  induction events generalizing n with
  | nil => rfl
  | cons event events ih =>
    have h := (n.forget_handle event.1 event.2).2
    change ((n.handle event.1 event.2).2.run events).forget
      = (n.forget.handle event.1 event.2).2.run events
    rw [ih, h]

end Node

end Forget

end FlowExport
