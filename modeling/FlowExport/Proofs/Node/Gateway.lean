/-
# What becomes of a payload at a gateway

A payload that is not a compact message is dropped and takes no number (`receive_malformed`); one
whose expansion fits is handed on as one full message under the current number (`receive_fits`).
Between the two there is a third outcome: a payload that is accepted, but too long once every
record is tagged with the sender, is dropped after its number was claimed (`receive_overflow`).

So the two outcomes that are meant are exactly those of payloads that do not overflow, and over a
whole run the numbers are off by the overflows before them and by nothing else (`run_gateway`).
-/
import FlowExport.Proofs.Node.Start
import FlowExport.Proofs.Wire.Expansion

namespace FlowExport

namespace GatewayNode

/-! ## 1. Outcomes -/

/-- **A payload that overflows**: it is accepted, but too long once it is expanded. -/
def overflows (payload : List UInt8) : Bool :=
  match CompactMessage.parse payload with
  | .ok message => decide (maxLength < message.expandedLength true)
  | .error _ => false

/-- The events that bring a payload that overflows. -/
def overflowCount (events : List (UInt32 × NodeEvent)) : Nat :=
  events.countP fun event =>
    match event.2 with
    | .datagram payload _ => overflows payload
    | _ => false

variable {τ : Type}

/-- **Handed on**: one full message under the current number, and the number moves on. -/
structure Forwards (n n' : GatewayNode (Journal τ)) : Prop where
  message : ∃ payload m,
    n'.outlet.handed = n.outlet.handed ++ [⟨payload, n.outlet.destination⟩] ∧
      FullMessage.decode payload = .ok m ∧ m.header.sequence = n.outlet.exporter.sequence
  sequence : n'.outlet.exporter.sequence = n.outlet.exporter.sequence + 1
  dropped : n'.outlet.counters.dropped = n.outlet.counters.dropped

/-- **Dropped**: nothing is handed on, and the number stays. -/
structure Drops (n n' : GatewayNode (Journal τ)) : Prop where
  handed : n'.outlet.handed = n.outlet.handed
  sequence : n'.outlet.exporter.sequence = n.outlet.exporter.sequence
  dropped : n'.outlet.counters.dropped = n.outlet.counters.dropped + 1

/-- **Dropped with its number**: nothing is handed on, and yet the number moves on. -/
structure Skips (n n' : GatewayNode (Journal τ)) : Prop where
  handed : n'.outlet.handed = n.outlet.handed
  sequence : n'.outlet.exporter.sequence = n.outlet.exporter.sequence + 1
  dropped : n'.outlet.counters.dropped = n.outlet.counters.dropped + 1

theorem number_ne_succ (a : UInt32) : a + 1 ≠ a := by
  intro h
  have h₁ := congrArg (fun x => x - a) h
  simp only [UInt32.sub_self, UInt32.add_comm a, UInt32.add_sub_cancel] at h₁
  exact absurd h₁ (by decide)

theorem Skips.not_forwards {n n' : GatewayNode (Journal τ)} (h : Skips n n') :
    ¬ Forwards n n' := by
  rintro ⟨⟨payload, m, hh, -, -⟩, -, -⟩
  have := congrArg List.length (hh.symm.trans h.handed)
  simp at this

theorem Skips.not_drops {n n' : GatewayNode (Journal τ)} (h : Skips n n') : ¬ Drops n n' :=
  fun hd => number_ne_succ _ (h.sequence.symm.trans hd.sequence)

theorem Drops.not_forwards {n n' : GatewayNode (Journal τ)} (h : Drops n n') :
    ¬ Forwards n n' :=
  fun hf => number_ne_succ _ (hf.sequence.symm.trans h.sequence)

theorem capacity_build (settings : ExportSettings) (collector : Endpoint) (transport : τ) :
    (build settings collector transport).outlet.buffer.capacity = maxLength :=
  Buffer.capacity_ofCapacity _

section Receive

variable [Transport τ] {n : GatewayNode τ} {payload : List UInt8} (clock : UInt32)
  (sender : Address)

theorem receive_malformed {e : CodecError} (h : CompactMessage.parse payload = .error e) :
    n.receive clock payload sender = n.drop := by
  simp only [receive, h]

variable {m : CompactMessage} (h : CompactMessage.parse payload = .ok m)
  (hcap : n.outlet.buffer.capacity = maxLength)

include h hcap

/-- **A payload that fits is handed on**, expanded under the current number. -/
theorem receive_fits (hfit : m.expandedLength true ≤ maxLength) :
    ∃ bytes full, Outlet.Hands n.outlet (n.receive clock payload sender).outlet bytes ∧
      FullMessage.decode bytes = .ok full ∧
      full.header.sequence = n.outlet.exporter.sequence ∧
      full.sets = m.sets.map (·.expandedSet m.kind (some sender)) := by
  obtain ⟨buffer, hx, hb⟩ := CompactMessage.expand_ok h n.outlet.buffer n.outlet.exporter clock
    (some sender) (by rw [hcap]; exact hfit) hfit
  refine ⟨_, _, ⟨buffer, hb, ?_⟩,
    CompactMessage.decode_expand h n.outlet.exporter clock (some sender) hfit, rfl, rfl⟩
  simp only [receive, h, hx, Outlet.post_ok]

omit [Transport τ] hcap in
theorem overflows_of_parse :
    overflows payload = decide (maxLength < m.expandedLength true) := by
  simp only [overflows, h]

omit h in
/-- A message that does not overflow is handed on. -/
theorem receive_hands (hok : (CompactMessage.parse payload).isOk = true)
    (ho : overflows payload = false) :
    ∃ bytes, Outlet.Hands n.outlet (n.receive clock payload sender).outlet bytes := by
  cases h : CompactMessage.parse payload with
  | error e =>
    rw [h] at hok
    cases hok
  | ok m =>
    rw [overflows_of_parse h, decide_eq_false_iff_not, Nat.not_lt] at ho
    obtain ⟨bytes, full, hhands, -⟩ := receive_fits clock sender h hcap ho
    exact ⟨bytes, hhands⟩

/-- **A payload that overflows** is dropped after its number was claimed. -/
theorem receive_overflow (hover : maxLength < m.expandedLength true) :
    ∃ buffer : Buffer, buffer.capacity = maxLength ∧ n.receive clock payload sender
      = drop ⟨{ n.outlet with buffer, exporter := n.outlet.exporter.advance }⟩ := by
  obtain ⟨e, buffer, hx, hb⟩ := CompactMessage.expand_error h n.outlet.buffer n.outlet.exporter
    clock (some sender) (by rw [hcap]; decide) (Nat.le_of_eq hcap) (by rw [hcap]; exact hover)
  refine ⟨buffer, hb.trans hcap, ?_⟩
  simp only [receive, h, hx, Outlet.post]

end Receive

/-! ## 2. Runs -/

section Run

variable [Transport τ]

/-- **A gateway after some events**, started as `n₀`: its counters and its number follow from what
it handed on and from the payloads that overflowed, and so does the number of every message it
handed on, from those before it. -/
structure Reached (n₀ : Node (Journal τ)) (events : List (UInt32 × NodeEvent))
    (n : GatewayNode (Journal τ)) : Prop where
  capacity : n.outlet.buffer.capacity = maxLength
  sequence : n.outlet.exporter.sequence
    = UInt32.ofNat (1 + n.outlet.handed.length + overflowCount events)
  sent_add_failed : n.outlet.counters.sent + n.outlet.counters.failed
    = UInt32.ofNat n.outlet.handed.length
  number : ∀ (k : Nat) (d : Datagram), n.outlet.handed[k]? = some d →
    ∃ past event m, past ++ [event] <+: events ∧
      (n₀.run past).outlet.handed.length = k ∧
      (n₀.run (past ++ [event])).outlet.handed.length = k + 1 ∧
      FullMessage.decode d.payload = .ok m ∧
      m.header.sequence = UInt32.ofNat (1 + k + overflowCount past)

variable {n : GatewayNode (Journal τ)}

/-- **Every payload has one of three outcomes**; which one is decided by the payload alone. -/
theorem receive_outcome (hcap : n.outlet.buffer.capacity = maxLength) (clock : UInt32)
    (payload : List UInt8) (sender : Address) :
    let n' := n.receive clock payload sender
    n'.outlet.buffer.capacity = maxLength ∧
      if overflows payload then Skips n n' ∧
        n'.outlet.counters.sent + n'.outlet.counters.failed
          = n.outlet.counters.sent + n.outlet.counters.failed
      else (Forwards n n' ∧ ∃ bytes, Outlet.Sends n.outlet n'.outlet bytes) ∨
        Drops n n' ∧ n'.outlet.counters.sent + n'.outlet.counters.failed
          = n.outlet.counters.sent + n.outlet.counters.failed := by
  intro n'
  cases hp : CompactMessage.parse payload with
  | error e =>
    have hn' : n' = n.drop := receive_malformed clock sender hp
    have ho : overflows payload = false := by simp only [overflows, hp]
    rw [hn', ho, if_neg (by simp)]
    exact ⟨hcap, Or.inr ⟨⟨rfl, rfl, rfl⟩, rfl⟩⟩
  | ok m =>
    rw [overflows_of_parse hp]
    rcases Nat.lt_or_ge maxLength (m.expandedLength true) with hover | hfit
    · obtain ⟨buffer, hb, hn'⟩ := receive_overflow clock sender hp hcap hover
      rw [if_pos (decide_eq_true hover)]
      change n' = _ at hn'
      rw [hn']
      exact ⟨hb, ⟨rfl, rfl, rfl⟩, rfl⟩
    · obtain ⟨bytes, full, hhands, hd, hs, -⟩ := receive_fits clock sender hp hcap hfit
      have hsends := hhands.sends
      rw [if_neg (by simpa using hfit)]
      refine ⟨hhands.capacity.trans hcap, Or.inl ⟨⟨⟨bytes, full, hsends.handed, hd, hs⟩, ?_,
        hsends.dropped⟩, bytes, hsends⟩⟩
      exact congrArg Exporter.sequence hsends.exporter

theorem forwards_of_isOk (hcap : n.outlet.buffer.capacity = maxLength) (clock : UInt32)
    {payload : List UInt8} (sender : Address) (hok : (CompactMessage.parse payload).isOk = true)
    (ho : overflows payload = false) : Forwards n (n.receive clock payload sender) := by
  obtain ⟨-, hout⟩ := receive_outcome hcap clock payload sender
  rw [ho, if_neg (by simp)] at hout
  obtain ⟨bytes, hhands⟩ := receive_hands clock sender hcap hok ho
  rcases hout with ⟨hf, -⟩ | ⟨hd, -⟩
  · exact hf
  · exact absurd (hd.dropped.symm.trans hhands.dropped) (number_ne_succ _)

theorem drops_of_not_isOk (clock : UInt32) {payload : List UInt8} (sender : Address)
    (hok : (CompactMessage.parse payload).isOk = false) :
    Drops n (n.receive clock payload sender) := by
  cases hp : CompactMessage.parse payload with
  | error e =>
    rw [receive_malformed clock sender hp]
    exact ⟨rfl, rfl, rfl⟩
  | ok m =>
    rw [hp] at hok
    cases hok

theorem skips_of_overflows (hcap : n.outlet.buffer.capacity = maxLength) (clock : UInt32)
    {payload : List UInt8} (sender : Address) (ho : overflows payload = true) :
    Skips n (n.receive clock payload sender) := by
  obtain ⟨-, hout⟩ := receive_outcome hcap clock payload sender
  rw [ho, if_pos rfl] at hout
  exact hout.1

theorem overflowCount_concat (past : List (UInt32 × NodeEvent)) (event : UInt32 × NodeEvent) :
    overflowCount (past ++ [event]) = overflowCount past + overflowCount [event] :=
  List.countP_append

theorem overflowCount_datagram (clock : UInt32) (payload : List UInt8) (sender : Address) :
    overflowCount [(clock, .datagram payload sender)] = if overflows payload then 1 else 0 := by
  simp [overflowCount]

variable {n₀ : Node (Journal τ)} {past : List (UInt32 × NodeEvent)}
  {event : UInt32 × NodeEvent} {n' : GatewayNode (Journal τ)}

/-- An event that hands nothing on. -/
theorem Reached.quiet (h : Reached n₀ past n) (hcap : n'.outlet.buffer.capacity = maxLength)
    (hh : n'.outlet.handed = n.outlet.handed)
    (hs : n'.outlet.exporter.sequence
      = n.outlet.exporter.sequence + UInt32.ofNat (overflowCount [event]))
    (hc : n'.outlet.counters.sent + n'.outlet.counters.failed
      = n.outlet.counters.sent + n.outlet.counters.failed) :
    Reached n₀ (past ++ [event]) n' := by
  refine ⟨hcap, ?_, by rw [hc, hh, h.sent_add_failed], ?_⟩
  · rw [hs, h.sequence, hh, overflowCount_concat, ← UInt32.ofNat_add, ← Nat.add_assoc]
  · intro k d hd
    rw [hh] at hd
    obtain ⟨past', event', m, hp, rest⟩ := h.number k d hd
    exact ⟨past', event', m, hp.trans (List.prefix_append _ _), rest⟩

/-- An event that hands one message on. -/
theorem Reached.forwards (h : Reached n₀ past n) (hcap : n'.outlet.buffer.capacity = maxLength)
    (hrun : n₀.run past = .gateway n) (hrun' : n₀.run (past ++ [event]) = .gateway n')
    (hf : Forwards n n') {bytes : List UInt8} (hs : Outlet.Sends n.outlet n'.outlet bytes)
    (ho : overflowCount [event] = 0) : Reached n₀ (past ++ [event]) n' := by
  obtain ⟨payload, m, hh, hd, hm⟩ := hf.message
  have hlen : n'.outlet.handed.length = n.outlet.handed.length + 1 := by
    rw [hh, List.length_append, List.length_singleton]
  refine ⟨hcap, ?_, ?_, ?_⟩
  · have hsum : 1 + n'.outlet.handed.length + overflowCount (past ++ [event])
        = 1 + n.outlet.handed.length + overflowCount past + 1 := by
      rw [hlen, overflowCount_concat, ho]
      omega
    rw [hf.sequence, h.sequence, hsum, UInt32.ofNat_add _ 1]
    rfl
  · rw [hs.sent_add_failed, h.sent_add_failed, hlen, UInt32.ofNat_add]
    rfl
  · intro k d hk
    rw [hh] at hk
    rcases Nat.lt_or_ge k n.outlet.handed.length with hlt | hge
    · rw [List.getElem?_append_left hlt] at hk
      obtain ⟨past', event', m', hp, rest⟩ := h.number k d hk
      exact ⟨past', event', m', hp.trans (List.prefix_append _ _), rest⟩
    · -- the message of this event is the last one
      rw [List.getElem?_append_right hge] at hk
      obtain ⟨hlt, hd'⟩ := List.getElem?_eq_some_iff.mp hk
      rw [List.length_singleton] at hlt
      have hkeq : k = n.outlet.handed.length := by omega
      subst hkeq
      have hd' : d = ⟨payload, n.outlet.destination⟩ := by simpa using hd'.symm
      refine ⟨past, event, m, List.prefix_rfl, by rw [hrun]; rfl, by rw [hrun']; exact hlen,
        by rw [hd']; exact hd, hm.trans h.sequence⟩

theorem run_datagram (n : GatewayNode τ) (clock : UInt32) (payload : List UInt8)
    (sender : Address) : (Node.gateway n).run [(clock, .datagram payload sender)]
      = .gateway (n.receive clock payload sender) := rfl

/-- **What is true of every run of a gateway.** -/
theorem reached_run {config : Config} {transport : τ} (hr : config.node.role = .gateway)
    (h : Node.start config ⟨transport, []⟩ = .ok n₀) (events : List (UInt32 × NodeEvent)) :
    ∃ n, n₀.run events = .gateway n ∧ Reached n₀ events n := by
  obtain ⟨-, collector, -, hn₀⟩ := Node.start_gateway hr h
  refine Node.run_induction (P := fun events node => ∃ n, node = .gateway n ∧
    Reached n₀ events n) ?_ ?_ events
  · refine ⟨_, hn₀, capacity_build _ _ _, rfl, rfl, ?_⟩
    intro k d hk
    simp [build, Outlet.handed, Outlet.ofTransport] at hk
  · rintro past clock event ⟨n, hrun, hn⟩
    have hconcat := Node.run_concat past clock event n₀
    rw [hrun] at hconcat ⊢
    have quiet : ∀ event' : NodeEvent, overflowCount [(clock, event')] = 0 →
        Reached n₀ (past ++ [(clock, event')]) n := by
      intro event' he
      exact hn.quiet hn.capacity rfl (by rw [he]; exact (UInt32.add_zero _).symm) rfl
    cases event with
    | tick time => exact ⟨n, rfl, quiet _ rfl⟩
    | traffic destination bytes => exact ⟨n, rfl, quiet _ rfl⟩
    | datagram payload sender =>
      refine ⟨n.receive clock payload sender, rfl, ?_⟩
      obtain ⟨hcap, hout⟩ := receive_outcome hn.capacity clock payload sender
      have hover := overflowCount_datagram clock payload sender
      cases ho : overflows payload with
      | true =>
        rw [ho, if_pos rfl] at hout hover
        exact hn.quiet hcap hout.1.handed (by rw [hover]; exact hout.1.sequence) hout.2
      | false =>
        rw [ho, if_neg (by simp)] at hout hover
        rcases hout with ⟨hf, bytes, hs⟩ | ⟨hd, hc⟩
        · exact hn.forwards hcap hrun hconcat hf hs hover
        · refine hn.quiet hcap hd.handed ?_ hc
          rw [hover, hd.sequence]
          exact (UInt32.add_zero _).symm

/-- Datagrams from one sender, in order. -/
def arrivals (payloads : List (List UInt8)) : List (UInt32 × NodeEvent) :=
  payloads.map fun payload => (0, .datagram payload .unspecified)

theorem overflowCount_arrivals (payloads : List (List UInt8)) :
    overflowCount (arrivals payloads) = payloads.countP overflows :=
  List.countP_map

/-- **One more payload**: it is handed on if it is a message that does not overflow, dropped if it
is no message, and dropped with its number if it overflows. -/
theorem run_arrivals_concat (past : List (List UInt8))
    (hrun : n₀.run (arrivals past) = .gateway n)
    (hcap : n.outlet.buffer.capacity = maxLength) (payload : List UInt8) :
    ∃ n', n₀.run (arrivals (past ++ [payload])) = .gateway n' ∧
      n'.outlet.buffer.capacity = maxLength ∧
      ((CompactMessage.parse payload).isOk = true → overflows payload = false →
        Forwards n n') ∧
      ((CompactMessage.parse payload).isOk = false → Drops n n') ∧
      (overflows payload = true → Skips n n') := by
  have hconcat := Node.run_concat (arrivals past) 0 (.datagram payload .unspecified) n₀
  rw [hrun] at hconcat
  refine ⟨n.receive 0 payload .unspecified, ?_, (receive_outcome hcap 0 payload .unspecified).1,
    forwards_of_isOk hcap 0 .unspecified, drops_of_not_isOk 0 .unspecified,
    skips_of_overflows hcap 0 .unspecified⟩
  rw [arrivals, List.map_append, List.map_singleton]
  exact hconcat

/-- **A payload is handed on or dropped without a number exactly if it does not overflow**, in
every run of a gateway.  A payload that overflows is dropped with its number.  The numbers of the
messages handed on, and the next one, are off by the overflows before them and by nothing else. -/
theorem run_gateway {config : Config} {transport : τ} (hr : config.node.role = .gateway)
    (h : Node.start config ⟨transport, []⟩ = .ok n₀) (events : List (UInt32 × NodeEvent)) :
    ∃ n, n₀.run events = .gateway n ∧
      (∀ (clock : UInt32) (payload : List UInt8) (sender : Address),
        let n' := n.receive clock payload sender
        (Forwards n n' ∨ Drops n n' ↔ overflows payload = false) ∧
          ¬ (Forwards n n' ∧ Drops n n') ∧
          (Skips n n' ↔ overflows payload = true)) ∧
      n.outlet.exporter.sequence - 1
        = n.outlet.counters.sent + n.outlet.counters.failed
          + UInt32.ofNat (overflowCount events) ∧
      n.outlet.counters.sent + n.outlet.counters.failed
        = UInt32.ofNat n.outlet.handed.length ∧
      ∀ (k : Nat) (d : Datagram), n.outlet.handed[k]? = some d →
        ∃ past event m, past ++ [event] <+: events ∧
          (n₀.run past).outlet.handed.length = k ∧
          (n₀.run (past ++ [event])).outlet.handed.length = k + 1 ∧
          FullMessage.decode d.payload = .ok m ∧
          m.header.sequence = UInt32.ofNat (1 + k + overflowCount past) := by
  obtain ⟨n, hrun, hn⟩ := reached_run hr h events
  refine ⟨n, hrun, ?_, ?_, hn.sent_add_failed, hn.number⟩
  · intro clock payload sender n'
    obtain ⟨-, hout⟩ := receive_outcome hn.capacity clock payload sender
    refine ⟨?_, fun hb => hb.2.not_forwards hb.1, ?_⟩
    · cases ho : overflows payload with
      | true =>
        rw [ho, if_pos rfl] at hout
        have hnone : ¬ (Forwards n n' ∨ Drops n n') :=
          fun hb => hb.elim hout.1.not_forwards hout.1.not_drops
        exact ⟨fun hb => absurd hb hnone, fun hf => absurd hf (by simp)⟩
      | false =>
        rw [ho, if_neg (by simp)] at hout
        exact ⟨fun _ => rfl, fun _ => hout.imp (·.1) (·.1)⟩
    · cases ho : overflows payload with
      | true =>
        rw [ho, if_pos rfl] at hout
        exact ⟨fun _ => rfl, fun _ => hout.1⟩
      | false =>
        rw [ho, if_neg (by simp)] at hout
        have hnone : ¬ Skips n n' := fun hs =>
          hout.elim (fun hf => hs.not_forwards hf.1) fun hd => hs.not_drops hd.1
        exact ⟨fun hs => absurd hs hnone, fun hf => absurd hf (by simp)⟩
  · rw [hn.sequence, hn.sent_add_failed, Nat.add_assoc, UInt32.ofNat_add, UInt32.ofNat_add,
      UInt32.add_comm]
    exact UInt32.add_sub_cancel _ _

end Run

/-! ## 3. A payload that overflows -/

/-- A gateway that reports to the unspecified address. -/
def plainConfig : Config :=
  { node := ⟨.unspecified, .gateway⟩, transport := { collector := some .unspecified } }

theorem role_plainConfig : plainConfig.node.role = .gateway := rfl

theorem start_plainConfig {τ : Type} (transport : τ) : Node.start plainConfig transport
    = .ok (.gateway (.build plainConfig.exporting ⟨.unspecified, 4739⟩ transport)) := rfl

/-- 255 records of one octet. -/
def crowdedRecords : List (List UInt8) :=
  List.replicate 255 [0]

/-- One compact set with all of them. -/
def crowdedFrame : Frame :=
  .ofSet .compact .data minTemplateId crowdedRecords.length crowdedRecords.flatten

/-- **Sixteen crowded sets**: 4149 octets in the compact encoding, 69440 in the full one with a
tag on every record. -/
def crowdedPayload : List UInt8 :=
  ({} : Exporter).message .compact .data 0 ((List.replicate 16 crowdedFrame).flatMap Frame.encode)

theorem length_crowdedRecords : crowdedRecords.length = 255 :=
  List.length_replicate

theorem length_of_mem_crowdedRecords {r : List UInt8} (h : r ∈ crowdedRecords) :
    r.length = 1 := by
  rw [List.eq_of_mem_replicate h, List.length_singleton]

theorem length_crowdedRecords_flatten : crowdedRecords.flatten.length = 255 := by
  rw [Octets.length_flatten_of_length fun r hr => length_of_mem_crowdedRecords hr,
    length_crowdedRecords]

theorem length_crowdedFrame : crowdedFrame.encode.length = 259 := by
  rw [crowdedFrame, length_encode_ofSet, length_crowdedRecords_flatten]
  rfl

theorem ofFrame_crowdedFrame : CompactSet.ofFrame crowdedFrame
    = ⟨minTemplateId, UInt8.ofNat crowdedRecords.length, crowdedRecords.flatten⟩ := by
  refine CompactSet.ofFrame_ofSet .data _ fun _ => ?_
  rw [length_crowdedRecords]
  decide

theorem overflows_crowdedPayload : overflows crowdedPayload = true := by
  have hcount : crowdedRecords.length ≤ maxCompactCount := by
    rw [length_crowdedRecords]
    decide
  have hcheck : ∀ f ∈ List.replicate 16 crowdedFrame,
      (CompactSet.ofFrame f).check .data = .ok () := by
    intro f hf
    rw [List.eq_of_mem_replicate hf, ofFrame_crowdedFrame]
    exact CompactSet.check_data Nat.one_pos (fun r hr => length_of_mem_crowdedRecords hr) hcount
  have hsmall : ∀ f ∈ List.replicate 16 crowdedFrame, f.encode.length ≤ maxLength := by
    intro f hf
    rw [List.eq_of_mem_replicate hf, length_crowdedFrame, maxLength]
    omega
  have hl : Encoding.compact.headerLength
      + ((List.replicate 16 crowdedFrame).flatMap Frame.encode).length ≤ maxLength := by
    rw [List.length_flatMap, List.map_replicate, length_crowdedFrame, List.sum_replicate_nat,
      Encoding.headerLength, maxLength]
    omega
  have hset : (CompactSet.mk minTemplateId (UInt8.ofNat crowdedRecords.length)
      crowdedRecords.flatten).expandedLength .data true = 4339 := by
    rw [CompactSet.expandedLength, length_crowdedRecords_flatten, length_crowdedRecords]
    rfl
  have hparse := CompactMessage.parse_message {} .data 0 hl hcheck
  simp only [overflows, crowdedPayload, hparse]
  rw [decide_eq_true_iff, CompactMessage.expandedLength, CompactMessage.sets_mk _ hsmall,
    List.map_replicate, ofFrame_crowdedFrame, List.map_replicate]
  simp only [CompactMessage.kind, hset]
  rw [total_eq_sum, List.sum_replicate_nat, Encoding.headerLength, maxLength]
  omega

/-- **A started gateway that is handed a crowded payload** neither hands it on nor keeps the
number for the next message. -/
theorem crowdedPayload_neither :
    ∃ n n' : GatewayNode (Journal Recorder),
      Node.start plainConfig ⟨{}, []⟩ = .ok (.gateway n) ∧
      (Node.gateway n).run [(0, .datagram crowdedPayload .unspecified)] = .gateway n' ∧
      ¬ Forwards n n' ∧ ¬ Drops n n' ∧
      n'.outlet.handed = [] ∧ n.outlet.exporter.sequence = 1 ∧
      n'.outlet.exporter.sequence = 2 := by
  have hstart := start_plainConfig (⟨{}, []⟩ : Journal Recorder)
  have hcap := capacity_build plainConfig.exporting ⟨.unspecified, 4739⟩
    (⟨{}, []⟩ : Journal Recorder)
  have hs := skips_of_overflows hcap 0 .unspecified overflows_crowdedPayload
  exact ⟨_, _, hstart, run_datagram _ _ _ _, hs.not_forwards, hs.not_drops, hs.handed, rfl,
    hs.sequence⟩

/-- One data set of two records for the template 256. -/
def smallPayload : List UInt8 :=
  [0xA2, 0, 7, 0, 13, 0, 2, 0, 8, 1, 2, 3, 4]

/-- A message is handed on, three octets that are none are dropped, the crowded payload is dropped
with the number 2, and so the second message that is handed on has the number 3. -/
theorem run_gateway_every_outcome :
    plainConfig.node.role = .gateway ∧
      ∃ n₀ n₁ n₂ n₃ n₄ : GatewayNode (Journal Recorder),
        Node.start plainConfig ⟨{}, []⟩ = .ok (.gateway n₀) ∧
        (Node.gateway n₀).run (arrivals [smallPayload]) = .gateway n₁ ∧ Forwards n₀ n₁ ∧
        (Node.gateway n₀).run (arrivals [smallPayload, [1, 2, 3]]) = .gateway n₂ ∧
        Drops n₁ n₂ ∧
        (Node.gateway n₀).run (arrivals [smallPayload, [1, 2, 3], crowdedPayload])
          = .gateway n₃ ∧ Skips n₂ n₃ ∧
        (Node.gateway n₀).run (arrivals [smallPayload, [1, 2, 3], crowdedPayload, smallPayload])
          = .gateway n₄ ∧ Forwards n₃ n₄ ∧
        n₄.outlet.counters.sent + n₄.outlet.counters.failed = 2 ∧
        n₄.outlet.exporter.sequence - 1 = 2 + 1 ∧
        ∃ d m, n₄.outlet.handed = n₁.outlet.handed ++ [d] ∧
          FullMessage.decode d.payload = .ok m ∧ m.header.sequence = 3 := by
  obtain ⟨n₀, hstart, hcap₀, hempty, hone⟩ : ∃ n₀ : GatewayNode (Journal Recorder),
      Node.start plainConfig ⟨{}, []⟩ = .ok (.gateway n₀) ∧
        n₀.outlet.buffer.capacity = maxLength ∧ n₀.outlet.handed = [] ∧
        n₀.outlet.exporter.sequence = 1 :=
    ⟨_, start_plainConfig _, capacity_build _ _ _, rfl, rfl⟩
  have hok : (CompactMessage.parse smallPayload).isOk = true := by decide +kernel
  have hsmall : overflows smallPayload = false := by decide +kernel
  obtain ⟨n₁, hrun₁, hcap₁, hf₁, -⟩ := run_arrivals_concat [] rfl hcap₀ smallPayload
  obtain ⟨n₂, hrun₂, hcap₂, -, hd₂, -⟩ := run_arrivals_concat _ hrun₁ hcap₁ [1, 2, 3]
  obtain ⟨n₃, hrun₃, hcap₃, -, -, hs₃⟩ := run_arrivals_concat _ hrun₂ hcap₂ crowdedPayload
  obtain ⟨n₄, hrun₄, -, hf₄, -⟩ := run_arrivals_concat _ hrun₃ hcap₃ smallPayload
  have h₁ := hf₁ hok hsmall
  have h₂ := hd₂ (by decide +kernel)
  have h₃ := hs₃ overflows_crowdedPayload
  have h₄ := hf₄ hok hsmall
  -- the second message has the number behind the one of the payload that overflowed
  obtain ⟨_, _, hhanded₁, -, -⟩ := h₁.message
  obtain ⟨payload, full, hhanded, hdecode, hnumber⟩ := h₄.message
  rw [h₃.handed, h₂.handed] at hhanded
  rw [h₃.sequence, h₂.sequence, h₁.sequence, hone] at hnumber
  have hlength : n₄.outlet.handed.length = 2 := by
    rw [hhanded, hhanded₁, hempty]
    rfl
  have hover : overflowCount (arrivals [smallPayload, [1, 2, 3], crowdedPayload, smallPayload])
      = 1 := by
    rw [overflowCount_arrivals, List.countP_cons_of_neg (by decide +kernel),
      List.countP_cons_of_neg (by decide), List.countP_cons_of_pos overflows_crowdedPayload,
      List.countP_singleton, hsmall]
    rfl
  obtain ⟨n, hrun, -, hsequence, hcounted, -⟩ := run_gateway role_plainConfig hstart
    (arrivals [smallPayload, [1, 2, 3], crowdedPayload, smallPayload])
  obtain rfl := Node.gateway.inj (hrun₄.symm.trans hrun)
  rw [hlength] at hcounted
  rw [hcounted, hover] at hsequence
  exact ⟨role_plainConfig, n₀, n₁, n₂, n₃, n₄, hstart, hrun₁, h₁, hrun₂, h₂, hrun₃, h₃, hrun₄, h₄,
    hcounted, hsequence, _, full, hhanded, hdecode, hnumber⟩

end GatewayNode

end FlowExport
