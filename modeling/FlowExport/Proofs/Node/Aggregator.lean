/-
# What an aggregator exports

An aggregator that was started is `Ready`: its buffers hold the longest message of its settings
and its aggregation is in order (`Aggregation.Inv`).  It stays so whatever arrives, so what is
pending can always be forwarded (`forward_template`, `forward_data`).

`Gathers` says what merging does: items and definitions join what is pending, and the outlet is
left alone.  A payload does so or brings nothing (`mergePayload_spec`), and so do the node's own
templates and records (`addTemplates_spec`, `addData_spec`).  `run_aggregator` puts the run
together: since nothing but a tick clears what is pending, a tick forwards what was merged since
the last one, grouped by template, and then the node's own records if they were merged.
-/
import FlowExport.Proofs.Node.Standard
import FlowExport.Proofs.Wire.Retaining

namespace FlowExport

namespace AggregatorNode

variable {τ : Type}

/-! ## 1. Merging -/

/-- **The message of a payload, if it is merged.** -/
def accepts (n : AggregatorNode τ) (payload : List UInt8) : Option CompactMessage :=
  match CompactMessage.parse payload, (n.mergePayload payload).1 with
  | .ok m, .ok _ => some m
  | _, _ => none

/-- **`n'` is `n` after merging**: items and definitions have joined what was pending. -/
structure Gathers (n n' : AggregatorNode τ) (items : List (UInt16 × List (List UInt8)))
    (definitions : List (UInt16 × List FieldSpecifier)) : Prop where
  outlet : n'.outlet = n.outlet
  own : n'.own = n.own
  schedule : n'.schedule = n.schedule
  scratch : n'.scratch.capacity = n.scratch.capacity
  inv : n'.aggregation.Inv
  maxMessage : n'.aggregation.maxMessage = n.aggregation.maxMessage
  pending : n'.aggregation.pending
    = collectAll (·.1) joinValues items n.aggregation.pending
  definitions : n'.aggregation.definitions
    = collectAll (·.1) keepLast definitions n.aggregation.definitions

theorem Gathers.refl {n : AggregatorNode τ} (h : n.aggregation.Inv) : Gathers n n [] [] :=
  ⟨rfl, rfl, rfl, rfl, h, rfl, rfl, rfl⟩

theorem Gathers.trans {n n₁ n₂ : AggregatorNode τ}
    {items items' : List (UInt16 × List (List UInt8))}
    {definitions definitions' : List (UInt16 × List FieldSpecifier)}
    (h₁ : Gathers n n₁ items definitions) (h₂ : Gathers n₁ n₂ items' definitions') :
    Gathers n n₂ (items ++ items') (definitions ++ definitions') :=
  ⟨h₂.outlet.trans h₁.outlet, h₂.own.trans h₁.own, h₂.schedule.trans h₁.schedule,
    h₂.scratch.trans h₁.scratch, h₂.inv, h₂.maxMessage.trans h₁.maxMessage,
    by rw [h₂.pending, h₁.pending, collectAll_append],
    by rw [h₂.definitions, h₁.definitions, collectAll_append]⟩

/-- **A payload brings its message**, or else nothing. -/
theorem mergePayload_spec {n : AggregatorNode τ} (h : n.aggregation.Inv) (payload : List UInt8) :
    (∃ m k, CompactMessage.parse payload = .ok m ∧ n.accepts payload = some m ∧
      (n.mergePayload payload).1 = .ok k ∧
      Gathers n (n.mergePayload payload).2 m.items m.definitions) ∨
    ∃ e, n.accepts payload = none ∧ (n.mergePayload payload).1 = .error e ∧
      Gathers n (n.mergePayload payload).2 [] [] := by
  cases hp : CompactMessage.parse payload with
  | error e =>
    refine Or.inr ⟨e, ?_, ?_, ?_⟩
    · simp only [accepts, hp]
    · simp only [mergePayload, hp]
    · simp only [mergePayload, hp]
      exact .refl h
  | ok m =>
    cases hm : n.aggregation.merge m with
    | mk outcome a =>
      cases outcome with
      | error e =>
        obtain ⟨hinv, -, hmax, hpend, hdefs⟩ := Aggregation.merge_error hp h hm
        refine Or.inr ⟨e, ?_, ?_, ?_⟩
        · simp only [accepts, mergePayload, hp, hm]
        · simp only [mergePayload, hp, hm]
        · simp only [mergePayload, hp, hm]
          exact ⟨rfl, rfl, rfl, rfl, hinv, hmax, hpend, hdefs⟩
      | ok k =>
        obtain ⟨hinv, -, hmax, hpend, hdefs⟩ := Aggregation.merge_ok hp h hm
        refine Or.inl ⟨m, k, rfl, ?_, ?_, ?_⟩
        · simp only [accepts, mergePayload, hp, hm]
        · simp only [mergePayload, hp, hm]
        · simp only [mergePayload, hp, hm]
          exact ⟨rfl, rfl, rfl, rfl, hinv, hmax, hpend, hdefs⟩

/-- **A datagram is merged**, or dropped and counted. -/
theorem receive_spec {n : AggregatorNode τ} (h : n.aggregation.Inv) (payload : List UInt8) :
    (∃ m, CompactMessage.parse payload = .ok m ∧ n.accepts payload = some m ∧
      Gathers n (n.receive payload) m.items m.definitions) ∨
    n.accepts payload = none ∧ ∃ n', Gathers n n' [] [] ∧ n.receive payload = n'.drop := by
  unfold AggregatorNode.receive
  rcases mergePayload_spec h payload with ⟨m, k, hp, ha, hk, hg⟩ | ⟨e, ha, he, hg⟩
  · generalize n.mergePayload payload = result at hk hg ⊢
    obtain ⟨outcome, n'⟩ := result
    obtain rfl : outcome = .ok k := hk
    exact Or.inl ⟨m, hp, ha, hg⟩
  · generalize n.mergePayload payload = result at he hg ⊢
    obtain ⟨outcome, n'⟩ := result
    obtain rfl : outcome = .error e := he
    exact Or.inr ⟨ha, n', hg, rfl⟩

/-- **A node as it was started**, but for its table, its counters, its numbers and what is
pending. -/
structure Ready (config : Config) (n : AggregatorNode τ) : Prop where
  inRange : config.InRange
  id_le : config.exporting.templateId ≤ maxCompactId
  capacity : n.outlet.buffer.capacity = config.exporting.maxMessage
  scratch : n.scratch.capacity = config.exporting.maxMessage
  built : n.own.Built config.exporting .compact
  every : n.schedule.every = config.exporting.refreshTicks.toNat
  inv : n.aggregation.Inv
  maxMessage : n.aggregation.maxMessage = config.exporting.maxMessage

/-- **A node that was started** is ready, holds nothing, and has sent nothing. -/
theorem ready_start [Transport τ] {config : Config} {transport : τ} {n₀ : Node τ}
    (hr : config.node.role = .aggregator) (h : Node.start config transport = .ok n₀) :
    ∃ n parent, n₀ = .aggregator n ∧ n.Ready config ∧ n.own.table.records = [] ∧
      n.schedule.ticks = 0 ∧ n.aggregation.pending = [] ∧ n.aggregation.definitions = [] ∧
      n.outlet = .ofTransport transport parent config.exporting.domain
        config.exporting.maxMessage := by
  obtain ⟨hin, own, parent, -, hown, hn₀⟩ := Node.start_aggregator hr h
  obtain ⟨hbuilt, htable⟩ := LocalExport.build_ok hown
  have hid : config.exporting.templateId ≤ maxCompactId :=
    hin.id_le (by simp [Config.usesCompact, hr])
  have hempty : (Aggregation.empty Aggregation.defaultPlaces config.exporting.maxMessage).Inv :=
    Aggregation.inv_empty (Nat.le_trans (by decide) hin.message_ge)
  exact ⟨_, parent, hn₀, ⟨hin, hid, Buffer.capacity_ofCapacity _, Buffer.capacity_ofCapacity _,
    hbuilt, Schedule.every_ofTicks hin.refresh_ne, hempty, rfl⟩, htable, rfl, rfl, rfl, rfl⟩

/-- **What the node's own templates bring to a tick**, where they are due and are merged. -/
def ownDefinitions (settings : ExportSettings) (n : AggregatorNode τ) (time : UInt32) :
    List (UInt16 × List FieldSpecifier) :=
  match n.schedule.isDue, (n.mergeOwn .template time).1 with
  | true, .ok _ => settings.definitions
  | _, _ => []

/-- **What the node's own records bring to a tick**, where they are merged. -/
def ownItems (settings : ExportSettings) (n : AggregatorNode τ) (time : UInt32) :
    List (UInt16 × List (List UInt8)) :=
  match (n.mergeOwn .data time).1 with
  | .ok _ => settings.recordSets n.own.table.records n.outlet.counters
  | .error _ => []

theorem recordSets_ne_nil (settings : ExportSettings) (flows : List FlowRecord)
    (counters : Counters) : ∀ p ∈ settings.recordSets flows counters, p.2 ≠ [] := by
  intro p hp
  rcases List.mem_append.mp hp with hp | hp
  · cases flows with
    | nil => simp at hp
    | cons r flows =>
      have hp : p = (settings.templateId,
          (r :: flows).map (·.octets settings.compactDestination)) := by simpa using hp
      simp [hp]
  · split at hp
    · simp [List.mem_singleton.mp hp]
    · simp at hp

section Ready

variable {config : Config} {n : AggregatorNode τ} (h : n.Ready config) (time : UInt32)

include h

theorem Ready.gathers {n' : AggregatorNode τ} {items : List (UInt16 × List (List UInt8))}
    {definitions : List (UInt16 × List FieldSpecifier)} (hg : Gathers n n' items definitions) :
    n'.Ready config :=
  ⟨h.inRange, h.id_le, by rw [hg.outlet, h.capacity], hg.scratch.trans h.scratch,
    by rw [hg.own]; exact h.built, by rw [hg.schedule, h.every], hg.inv,
    hg.maxMessage.trans h.maxMessage⟩

theorem Ready.withOutlet {o : Outlet τ} (ho : o.buffer.capacity = n.outlet.buffer.capacity) :
    Ready config { n with outlet := o } :=
  ⟨h.inRange, h.id_le, ho.trans h.capacity, h.scratch, h.built, h.every, h.inv, h.maxMessage⟩

theorem Ready.advance : Ready config { n with schedule := n.schedule.advance } :=
  ⟨h.inRange, h.id_le, h.capacity, h.scratch, h.built, h.every, h.inv, h.maxMessage⟩

theorem Ready.drop : n.drop.Ready config :=
  h.withOutlet rfl

theorem Ready.observe (destination : Address) (bytes : UInt64) :
    (n.observe destination bytes).2.Ready config :=
  ⟨h.inRange, h.id_le, h.capacity, h.scratch,
    h.built.withTable (FlowTable.update_capacity _ _ _), h.every, h.inv, h.maxMessage⟩

/-- **The node's own message is always written**, and merged like a child's. -/
theorem mergeOwn_eq (kind : Kind) : ∃ payload scratch,
    scratch.capacity = n.scratch.capacity ∧
    n.mergeOwn kind time = { n with scratch }.mergePayload payload ∧
    ∃ m, CompactMessage.parse payload = .ok m ∧
      m.items = (match kind with
        | .template => []
        | .data => config.exporting.recordSets n.own.table.records n.outlet.counters) ∧
      m.definitions = (match kind with
        | .template => config.exporting.definitions
        | .data => []) := by
  have hid : Encoding.compact = .compact → config.exporting.templateId ≤ maxCompactId :=
    fun _ => h.id_le
  cases kind with
  | template =>
    obtain ⟨payload, scratch, hc, hb, -, m, hp, hk, -, hd⟩ := LocalExport.compose_write_template
      h.built hid h.inRange.message_le h.scratch { domain := n.outlet.exporter.domain } time
      n.outlet.counters
    refine ⟨payload, scratch, hb.trans h.scratch.symm, by simp only [mergeOwn, hc], m, hp, ?_, ?_⟩
    · rw [CompactMessage.items, hk]
    · rw [CompactMessage.definitions, hk]
      exact hd
  | data =>
    obtain ⟨payload, scratch, hc, hb, -, m, hp, hk, -, hr⟩ := LocalExport.compose_write_data
      h.built hid h.inRange.message_le h.scratch { domain := n.outlet.exporter.domain } time
      n.outlet.counters
    refine ⟨payload, scratch, hb.trans h.scratch.symm, by simp only [mergeOwn, hc], m, hp, ?_, ?_⟩
    · exact CompactMessage.items_of_records hp hk hr (recordSets_ne_nil _ _ _)
    · rw [CompactMessage.definitions, hk]

/-- **The node's own templates or records are merged**, or bring nothing. -/
theorem mergeOwn_spec (kind : Kind) :
    (∃ k, (n.mergeOwn kind time).1 = .ok k ∧ Gathers n (n.mergeOwn kind time).2
      (match kind with
        | .template => []
        | .data => config.exporting.recordSets n.own.table.records n.outlet.counters)
      (match kind with
        | .template => config.exporting.definitions
        | .data => [])) ∨
    ∃ e, (n.mergeOwn kind time).1 = .error e ∧ Gathers n (n.mergeOwn kind time).2 [] [] := by
  obtain ⟨payload, scratch, hs, heq, m, hp, hitems, hdefs⟩ := mergeOwn_eq h time kind
  rw [heq, ← hitems, ← hdefs]
  have hwith : ∀ {n' : AggregatorNode τ} {items : List (UInt16 × List (List UInt8))}
      {definitions : List (UInt16 × List FieldSpecifier)},
      Gathers { n with scratch } n' items definitions → Gathers n n' items definitions :=
    fun hg => ⟨hg.outlet, hg.own, hg.schedule, hg.scratch.trans hs, hg.inv, hg.maxMessage,
      hg.pending, hg.definitions⟩
  have hinv : AggregatorNode.aggregation { n with scratch } |>.Inv := h.inv
  rcases mergePayload_spec hinv payload with ⟨m', k, hp', -, hk, hg⟩ | ⟨e, -, he, hg⟩
  · rw [hp] at hp'
    obtain rfl := Except.ok.inj hp'
    exact Or.inl ⟨k, hk, hwith hg⟩
  · exact Or.inr ⟨e, he, hwith hg⟩

/-- **A tick merges the node's own templates when they are due.** -/
theorem addTemplates_spec :
    Gathers { n with schedule := n.schedule.advance } (n.addTemplates time) []
      (n.ownDefinitions config.exporting time) := by
  have hadvance : ∀ {n' : AggregatorNode τ} {items : List (UInt16 × List (List UInt8))}
      {definitions : List (UInt16 × List FieldSpecifier)}, Gathers n n' items definitions →
      Gathers { n with schedule := n.schedule.advance }
        { n' with schedule := n.schedule.advance } items definitions :=
    fun hg => ⟨hg.outlet, hg.own, rfl, hg.scratch, hg.inv, hg.maxMessage, hg.pending,
      hg.definitions⟩
  unfold addTemplates ownDefinitions
  cases n.schedule.isDue with
  | false => exact hadvance (.refl h.inv)
  | true =>
    rcases mergeOwn_spec h time .template with ⟨k, hk, hg⟩ | ⟨e, he, hg⟩
    · rw [hk]
      exact hadvance hg
    · rw [he]
      exact hadvance hg

theorem recordSets_of_not_hasData (hd : n.own.hasData = false) :
    config.exporting.recordSets n.own.table.records n.outlet.counters = [] := by
  rw [LocalExport.hasData, h.built.reports, Bool.or_eq_false_iff, Bool.not_eq_false',
    FlowTable.isEmpty] at hd
  rw [ExportSettings.recordSets, hd.1, hd.2]
  rfl

/-- **A tick merges the node's own records**; where they are refused, they are dropped and
counted. -/
theorem addData_spec : ∃ n', Gathers n n' (n.ownItems config.exporting time) [] ∧
    (n.addData time = n' ∧ n.ownItems config.exporting time
        = config.exporting.recordSets n.own.table.records n.outlet.counters ∨
      n.addData time = n'.drop ∧ n.ownItems config.exporting time = []) := by
  cases hd : n.own.hasData with
  | false =>
    have hnone := recordSets_of_not_hasData h hd
    have hitems : n.ownItems config.exporting time = [] := by
      unfold ownItems
      split
      · exact hnone
      · rfl
    refine ⟨n, by rw [hitems]; exact .refl h.inv, Or.inl ⟨?_, by rw [hitems, hnone]⟩⟩
    rw [addData, hd]
    rfl
  | true =>
    unfold addData ownItems
    rw [hd]
    rcases mergeOwn_spec h time .data with ⟨k, hk, hg⟩ | ⟨e, he, hg⟩
    · generalize n.mergeOwn .data time = merged at hk hg ⊢
      obtain ⟨outcome, n'⟩ := merged
      obtain rfl : outcome = .ok k := hk
      exact ⟨n', hg, Or.inl ⟨rfl, rfl⟩⟩
    · generalize n.mergeOwn .data time = merged at he hg ⊢
      obtain ⟨outcome, n'⟩ := merged
      obtain rfl : outcome = .error e := he
      exact ⟨n', hg, Or.inr ⟨rfl, rfl⟩⟩

/-! ## 2. Forwarding -/

variable [Transport τ]

/-- **The retained definitions can always be forwarded.** -/
theorem forward_template : ∃ payload,
    (n.outlet.emit .compact .template time n.aggregation.writeTemplates).1 = .ok () ∧
    Outlet.Hands n.outlet (n.forward .template time).outlet payload ∧
    payload.length ≤ config.exporting.maxMessage ∧
    Encoding.compact.ReadsDefinitions payload n.outlet.exporter.sequence
      n.aggregation.definitions := by
  have hcap := h.capacity
  have hmax := h.inRange.message_le
  obtain ⟨payload, buffer, hc, hb, hl, hr⟩ := Aggregation.compose_writeTemplates n.outlet.buffer
    n.outlet.exporter time (by omega) (Nat.le_of_eq (h.maxMessage.trans hcap.symm))
    h.inv.templates
  obtain ⟨ho, hh⟩ := Outlet.emit_ok hc hb
  exact ⟨payload, ho, hh, by omega, hr⟩

/-- **The pending data can always be forwarded.** -/
theorem forward_data : ∃ payload,
    (n.outlet.emit .compact .data time n.aggregation.writeData).1 = .ok () ∧
    Outlet.Hands n.outlet (n.forward .data time).outlet payload ∧
    payload.length ≤ config.exporting.maxMessage ∧
    Encoding.compact.ReadsRecords payload n.outlet.exporter.sequence n.aggregation.pending := by
  have hcap := h.capacity
  have hmax := h.inRange.message_le
  obtain ⟨payload, buffer, hc, hb, hl, hr⟩ := Aggregation.compose_writeData n.outlet.buffer
    n.outlet.exporter time (by omega) (Nat.le_of_eq (h.maxMessage.trans hcap.symm))
    h.inv.data
  obtain ⟨ho, hh⟩ := Outlet.emit_ok hc hb
  exact ⟨payload, ho, hh, by omega, hr⟩

/-- Neither message fails to be written, the second one whether or not the first went before. -/
theorem forwards_ok :
    (n.outlet.emit .compact .template time n.aggregation.writeTemplates).1 = .ok () ∧
      ∀ g ∈ [n, n.forward .template time],
        (g.outlet.emit .compact .data time g.aggregation.writeData).1 = .ok () := by
  obtain ⟨payload, ht, hh, -⟩ := forward_template h time
  refine ⟨ht, fun g hg => ?_⟩
  rcases List.mem_cons.mp hg with rfl | hg
  · obtain ⟨-, hd, -⟩ := forward_data h time
    exact hd
  · obtain rfl := List.mem_singleton.mp hg
    obtain ⟨-, hd, -⟩ := forward_data (h.withOutlet hh.capacity) time
    exact hd

/-- **Everything that is pending goes out**: the definitions if there are any, then the data if
there is any. -/
theorem forwardAll_spec : ∃ o,
    Outlet.HandsIf (n.aggregation.definitions ≠ []) config.exporting.maxMessage
      (Encoding.compact.ReadsDefinitions · n.outlet.exporter.sequence n.aggregation.definitions)
      n.outlet o ∧
    Outlet.HandsIf (n.aggregation.pending ≠ []) config.exporting.maxMessage
      (Encoding.compact.ReadsRecords · o.exporter.sequence n.aggregation.pending)
      o (n.forwardAll time).outlet := by
  have htemplates : n.aggregation.templates.isEmpty = false ↔ n.aggregation.definitions ≠ [] := by
    rw [Aggregation.definitions, ne_eq, List.map_eq_nil_iff, List.isEmpty_eq_false_iff]
  have hdata : n.aggregation.isEmpty = false ↔ n.aggregation.pending ≠ [] := by
    rw [Aggregation.pending, ne_eq, List.map_eq_nil_iff, Aggregation.isEmpty,
      List.isEmpty_eq_false_iff]
  have hfirst : Outlet.HandsIf (n.aggregation.definitions ≠ []) config.exporting.maxMessage
      (Encoding.compact.ReadsDefinitions · n.outlet.exporter.sequence n.aggregation.definitions)
      n.outlet
      (if n.aggregation.templates.isEmpty then n else n.forward .template time).outlet := by
    obtain ⟨payload, -, hh, hl, hr⟩ := forward_template h time
    constructor
    · intro hne
      rw [htemplates.mpr hne]
      exact ⟨payload, hh, hl, hr⟩
    · intro he
      rw [if_pos (eq_true_of_ne_false (mt htemplates.mp he))]
  refine ⟨_, hfirst, ?_⟩
  -- the data goes out behind the definitions, from the same aggregation
  obtain ⟨n', hn', hready, hagg⟩ : ∃ n', n'
      = (if n.aggregation.templates.isEmpty then n else n.forward .template time) ∧
        n'.Ready config ∧ n'.aggregation = n.aggregation := by
    have hcap := hfirst.capacity
    refine ⟨_, rfl, ?_, ?_⟩
    · split
      · exact h
      · rename_i he
        rw [if_neg he] at hcap
        exact h.withOutlet hcap
    · split <;> rfl
  obtain ⟨payload, -, hh, hl, hr⟩ := forward_data hready time
  have hall : (n.forwardAll time).outlet
      = (if n.aggregation.isEmpty then n' else n'.forward .data time).outlet := by
    rw [← hagg, hn']
    rfl
  rw [hagg] at hr
  rw [hall, ← hn']
  constructor
  · intro hne
    rw [hdata.mpr hne]
    exact ⟨payload, hh, hl, hr⟩
  · intro he
    rw [if_pos (eq_true_of_ne_false (mt hdata.mp he))]

/-! ## 3. One tick -/

omit h [Transport τ] in
/-- **What a tick forwards**: what is pending once the node's own templates and records are
merged. -/
def gathered (n : AggregatorNode τ) (time : UInt32) : AggregatorNode τ :=
  (n.addTemplates time).addData time

omit [Transport τ] in
/-- **A tick gathers the node's own behind what was merged before**; its records may be refused,
which is counted. -/
theorem gathered_spec : ∃ n',
    Gathers { n with schedule := n.schedule.advance } n'
      ((n.addTemplates time).ownItems config.exporting time)
      (n.ownDefinitions config.exporting time) ∧
    (n.gathered time = n' ∧ (n.addTemplates time).ownItems config.exporting time
        = config.exporting.recordSets n.own.table.records n.outlet.counters ∨
      n.gathered time = n'.drop ∧ (n.addTemplates time).ownItems config.exporting time = []) := by
  have hg₁ := addTemplates_spec h time
  obtain ⟨n', hg, hcase⟩ := addData_spec ((Ready.advance h).gathers hg₁) time
  have hboth := hg₁.trans hg
  rw [List.nil_append, List.append_nil] at hboth
  rw [hg₁.own, hg₁.outlet] at hcase
  exact ⟨n', hboth, hcase⟩

omit [Transport τ] in
theorem gathered_ready : (n.gathered time).Ready config := by
  obtain ⟨n', hg, ⟨heq, -⟩ | ⟨heq, -⟩⟩ := gathered_spec h time
  · rw [heq]
    exact (Ready.advance h).gathers hg
  · rw [heq]
    exact ((Ready.advance h).gathers hg).drop

omit [Transport τ] in
/-- What is pending for a tick, and when it takes place. -/
theorem gathered_state :
    (n.gathered time).aggregation.pending = collectAll (·.1) joinValues
        ((n.addTemplates time).ownItems config.exporting time) n.aggregation.pending ∧
      (n.gathered time).aggregation.definitions = collectAll (·.1) keepLast
        (n.ownDefinitions config.exporting time) n.aggregation.definitions ∧
      (n.gathered time).schedule = n.schedule.advance := by
  obtain ⟨n', hg, ⟨heq, -⟩ | ⟨heq, -⟩⟩ := gathered_spec h time
  · rw [heq]
    exact ⟨hg.pending, hg.definitions, hg.schedule⟩
  · rw [heq]
    exact ⟨hg.pending, hg.definitions, hg.schedule⟩

omit [Transport τ] in
/-- What a tick gathers is no message yet: at most a drop is counted. -/
theorem gathered_outlet : ∃ counters : Counters,
    (n.gathered time).outlet = { n.outlet with counters } ∧
      counters.sent = n.outlet.counters.sent ∧ counters.failed = n.outlet.counters.failed := by
  obtain ⟨n', hg, ⟨heq, -⟩ | ⟨heq, -⟩⟩ := gathered_spec h time
  · rw [heq, hg.outlet]
    exact ⟨_, rfl, rfl, rfl⟩
  · rw [heq, drop, hg.outlet]
    exact ⟨_, rfl, rfl, rfl⟩

omit [Transport τ] in
/-- What a tick forwards is written from this state: the flow table has been given up. -/
theorem flushed_ready :
    AggregatorNode.Ready config { n.gathered time with own := (n.gathered time).own.flush } :=
  have hg := gathered_ready h time
  ⟨hg.inRange, hg.id_le, hg.capacity, hg.scratch, hg.built.withTable rfl, hg.every, hg.inv,
    hg.maxMessage⟩

/-- **A tick hands on what it has gathered.** -/
theorem tick_spec : ∃ o,
    Outlet.HandsIf ((n.gathered time).aggregation.definitions ≠ []) config.exporting.maxMessage
      (Encoding.compact.ReadsDefinitions · (n.gathered time).outlet.exporter.sequence
        (n.gathered time).aggregation.definitions) (n.gathered time).outlet o ∧
    Outlet.HandsIf ((n.gathered time).aggregation.pending ≠ []) config.exporting.maxMessage
      (Encoding.compact.ReadsRecords · o.exporter.sequence
        (n.gathered time).aggregation.pending) o (n.tick time).outlet :=
  forwardAll_spec (flushed_ready h time) time

omit h in
/-- A tick changes the outlet, empties the table and the aggregation, and counts itself. -/
theorem tick_eq (n : AggregatorNode τ) (time : UInt32) :
    n.tick time = { n.gathered time with
      outlet := (n.tick time).outlet
      own := (n.gathered time).own.flush
      aggregation := (n.gathered time).aggregation.reset } := by
  have hall : ∀ m : AggregatorNode τ, m.forwardAll time = { m with
      outlet := (m.forwardAll time).outlet, aggregation := m.aggregation.reset } := by
    intro m
    unfold forwardAll
    cases m.aggregation.templates.isEmpty <;> cases hd : m.aggregation.isEmpty <;>
      simp only [hd, forward, Bool.false_eq_true, if_false, if_true]
  exact hall _

theorem tick_ready : (n.tick time).Ready config := by
  have hg := flushed_ready h time
  obtain ⟨o, h₁, h₂⟩ := tick_spec h time
  have hcap := h₂.capacity.trans h₁.capacity
  rw [tick_eq]
  exact ⟨hg.inRange, hg.id_le, hcap.trans hg.capacity, hg.scratch, hg.built, hg.every,
    hg.inv.reset, hg.maxMessage⟩

end Ready

/-! ## 4. Runs -/

end AggregatorNode

namespace Node

variable {τ : Type}

/-- **The messages merged since the last tick**, after one more event. -/
def gather (n : Node τ) (event : NodeEvent) (merged : List CompactMessage) :
    List CompactMessage :=
  match n, event with
  | .aggregator n, .datagram payload _ => merged ++ (n.accepts payload).toList
  | _, .tick _ => []
  | _, _ => merged

variable [Transport τ]

/-- **The messages merged since the last tick of a run**, in order. -/
def merged (events : List (UInt32 × NodeEvent)) (n : Node τ) : List CompactMessage :=
  (events.foldl (fun s event => ((s.1.handle event.1 event.2).2, s.1.gather event.2 s.2))
    (n, [])).2

theorem merged_concat (past : List (UInt32 × NodeEvent)) (clock : UInt32) (event : NodeEvent)
    (n : Node τ) : n.merged (past ++ [(clock, event)])
      = (n.run past).gather event (n.merged past) := by
  have hrun : ∀ (events : List (UInt32 × NodeEvent)) (s : Node τ × List CompactMessage),
      (events.foldl (fun s event => ((s.1.handle event.1 event.2).2, s.1.gather event.2 s.2))
        s).1 = s.1.run events := by
    intro events
    induction events with
    | nil => exact fun s => rfl
    | cons event events ih => exact fun s => ih _
  rw [merged, List.foldl_append, List.foldl_cons, List.foldl_nil, hrun]
  rfl

end Node

namespace AggregatorNode

variable {τ : Type}

section Run

variable {config : Config} {events : List (UInt32 × NodeEvent)}
  {merged : List CompactMessage} {n : AggregatorNode (Journal τ)}

/-- **An aggregator after some events**, since the last tick of which these messages were
merged. -/
structure Reached (config : Config) (events : List (UInt32 × NodeEvent))
    (merged : List CompactMessage) (n : AggregatorNode (Journal τ)) : Prop where
  ready : n.Ready config
  ticks : n.schedule.ticks = tickCount events
  pending : n.aggregation.pending
    = collectAll (·.1) joinValues (merged.flatMap (·.items)) []
  definitions : n.aggregation.definitions
    = collectAll (·.1) keepLast (merged.flatMap (·.definitions)) []
  logged : n.outlet.Logged .compact config.exporting.maxMessage

theorem Reached.logged_gathered (h : Reached config events merged n) (time : UInt32) :
    (n.gathered time).outlet.Logged .compact config.exporting.maxMessage := by
  obtain ⟨counters, heq, hsent, hfailed⟩ := gathered_outlet h.ready time
  rw [heq]
  exact h.logged.congr rfl rfl hsent hfailed

theorem Reached.receive (h : Reached config events merged n) (clock : UInt32)
    (payload : List UInt8) (sender : Address) :
    Reached config (events ++ [(clock, .datagram payload sender)])
      (merged ++ (n.accepts payload).toList) (n.receive payload) := by
  have hticks : n.schedule.ticks = tickCount (events ++ [(clock, .datagram payload sender)]) := by
    rw [tickCount_concat, h.ticks]
    rfl
  rcases receive_spec h.ready.inv payload with ⟨m, -, ha, hg⟩ | ⟨ha, n', hg, heq⟩
  · rw [ha, Option.toList_some]
    refine ⟨h.ready.gathers hg, by rw [hg.schedule, hticks], ?_, ?_, ?_⟩
    · rw [hg.pending, h.pending, ← collectAll_append, List.flatMap_append, List.flatMap_singleton]
    · rw [hg.definitions, h.definitions, ← collectAll_append, List.flatMap_append,
        List.flatMap_singleton]
    · rw [hg.outlet]
      exact h.logged
  · rw [heq, ha, Option.toList_none, List.append_nil]
    refine ⟨(h.ready.gathers hg).drop, ?_, hg.pending.trans h.pending,
      hg.definitions.trans h.definitions, ?_⟩
    · rw [← hticks, ← hg.schedule]
      rfl
    · rw [drop, hg.outlet]
      exact h.logged.congr rfl rfl rfl rfl

variable [Transport τ]

theorem Reached.tick (h : Reached config events merged n) (clock time : UInt32) :
    Reached config (events ++ [(clock, .tick time)]) [] (n.tick time) := by
  refine ⟨tick_ready h.ready time, ?_, ?_, ?_, ?_⟩
  · rw [tick_eq, tickCount_concat, ← h.ticks]
    exact congrArg Schedule.ticks (gathered_state h.ready time).2.2
  · rw [tick_eq]
    rfl
  · rw [tick_eq]
    rfl
  · obtain ⟨o, h₁, h₂⟩ := tick_spec h.ready time
    exact ((h.logged_gathered time).definitions h₁).records h₂

/-- **What is true of every run of an aggregator.** -/
theorem reached_run {transport : τ} {n₀ : Node (Journal τ)}
    (hr : config.node.role = .aggregator) (h : Node.start config ⟨transport, []⟩ = .ok n₀)
    (events : List (UInt32 × NodeEvent)) :
    ∃ n, n₀.run events = .aggregator n ∧ Reached config events (n₀.merged events) n := by
  obtain ⟨n, parent, hn₀, hready, -, hticks, hpend, hdefs, hout⟩ := ready_start hr h
  refine Node.run_induction (P := fun events node => ∃ n, node = .aggregator n ∧
    Reached config events (n₀.merged events) n) ?_ ?_ events
  · exact ⟨n, hn₀, hready, hticks, hpend, hdefs, by rw [hout]; exact .ofTransport _ _ _ _ _ _⟩
  · rintro past clock event ⟨n, hrun, hn⟩
    rw [Node.merged_concat, hrun]
    cases event with
    | tick time => exact ⟨_, rfl, hn.tick clock time⟩
    | datagram payload sender => exact ⟨_, rfl, hn.receive clock payload sender⟩
    | traffic destination bytes =>
      exact ⟨_, rfl, hn.ready.observe destination bytes,
        by rw [tickCount_concat, ← hn.ticks]; rfl, hn.pending, hn.definitions,
        hn.logged.congr rfl rfl rfl rfl⟩

/-- Only a tick hands anything on. -/
theorem handed_of_not_tick (h : n.Ready config) (clock : UInt32) {event : NodeEvent}
    (he : event.isTick = false) :
    ((Node.aggregator n).handle clock event).2.outlet.handed = n.outlet.handed := by
  cases event with
  | tick time => simp [NodeEvent.isTick] at he
  | traffic destination bytes => rfl
  | datagram payload sender =>
    change (n.receive payload).outlet.handed = n.outlet.handed
    rcases receive_spec h.inv payload with ⟨m, -, -, hg⟩ | ⟨-, n', hg, heq⟩
    · rw [hg.outlet]
    · rw [heq, drop, hg.outlet]
      rfl

/-- **What an aggregator exports**, in every run and with every transport.  What it forwards is
always written, numbered from one without a gap, and no longer than configured.  A tick forwards
the definitions merged since the last tick, the last one of each template, and then the records:
those of the messages merged since the last tick, in the order they were merged, and behind them
the node's own unless they are refused and dropped, grouped by template in order of first
appearance.  Between ticks nothing is handed on. -/
theorem run_aggregator {transport : τ} {n₀ : Node (Journal τ)}
    (hr : config.node.role = .aggregator) (h : Node.start config ⟨transport, []⟩ = .ok n₀)
    (events : List (UInt32 × NodeEvent)) :
    ∃ n, n₀.run events = .aggregator n ∧
      n.outlet.exporter.sequence = UInt32.ofNat (1 + n.outlet.handed.length) ∧
      n.outlet.counters.sent + n.outlet.counters.failed
        = UInt32.ofNat n.outlet.handed.length ∧
      (∀ (k : Nat) (d : Datagram), n.outlet.handed[k]? = some d →
        d.payload.length ≤ config.exporting.maxMessage ∧
        Encoding.compact.ReadsNumber d.payload (1 + k)) ∧
      (∀ (clock : UInt32) (event : NodeEvent), event.isTick = false →
        ((Node.aggregator n).handle clock event).2.outlet.handed = n.outlet.handed) ∧
      ∀ time : UInt32,
        ((n.gathered time).outlet.emit .compact .template time
          (n.gathered time).aggregation.writeTemplates).1 = .ok () ∧
        (∀ g ∈ [n.gathered time, (n.gathered time).forward .template time],
          (g.outlet.emit .compact .data time g.aggregation.writeData).1 = .ok ()) ∧
        (n.tick time).own.table.records = [] ∧
        ∃ (own : List (UInt16 × List (List UInt8))) (definitions records : List Datagram),
          ((n.tick time).outlet.counters.dropped = n.outlet.counters.dropped ∧
              own = config.exporting.recordSets n.own.table.records n.outlet.counters ∨
            (n.tick time).outlet.counters.dropped = n.outlet.counters.dropped + 1 ∧
              own = []) ∧
          (n.tick time).outlet.handed = n.outlet.handed ++ definitions ++ records ∧
          (let defined := collectAll (·.1) keepLast ((n₀.merged events).flatMap (·.definitions)
              ++ n.ownDefinitions config.exporting time) []
            if defined = [] then definitions = []
            else ∃ payload, definitions = [⟨payload, n.outlet.destination⟩] ∧
              Encoding.compact.ReadsDefinitions payload n.outlet.exporter.sequence defined) ∧
          (let items := (n₀.merged events).flatMap (·.items) ++ own
            if items = [] then records = []
            else ∃ payload, records = [⟨payload, n.outlet.destination⟩] ∧
              Encoding.compact.ReadsRecords payload
                (UInt32.ofNat (1 + n.outlet.handed.length + definitions.length))
                (grouped items)) := by
  obtain ⟨n, hrun, hn⟩ := reached_run hr h events
  refine ⟨n, hrun, hn.logged.sequence, hn.logged.sent_add_failed, hn.logged.message,
    fun clock event he => handed_of_not_tick hn.ready clock he, fun time => ?_⟩
  obtain ⟨hpend, hdefs, -⟩ := gathered_state hn.ready time
  rw [hn.pending, ← collectAll_append, collectAll_join] at hpend
  rw [hn.definitions, ← collectAll_append] at hdefs
  obtain ⟨ht, hd⟩ := forwards_ok (gathered_ready hn.ready time) time
  refine ⟨ht, hd, by rw [tick_eq]; rfl, (n.addTemplates time).ownItems config.exporting time, ?_⟩
  -- what was gathered left the journal alone, and then each message is there or not
  have hlog := hn.logged_gathered time
  have hsame : (n.gathered time).outlet.handed = n.outlet.handed ∧
      (n.gathered time).outlet.destination = n.outlet.destination ∧
      (n.gathered time).outlet.exporter.sequence = n.outlet.exporter.sequence := by
    obtain ⟨counters, heq, -, -⟩ := gathered_outlet hn.ready time
    rw [heq]
    exact ⟨rfl, rfl, rfl⟩
  obtain ⟨o, h₁, h₂⟩ := tick_spec hn.ready time
  obtain ⟨definitions, hto, hdue, hrest⟩ := h₁.handed
  obtain ⟨records, hro, hany, hnone⟩ := h₂.handed
  have hlen : o.handed.length = n.outlet.handed.length + definitions.length := by
    rw [hto, hsame.1, List.length_append]
  rw [(hlog.definitions h₁).sequence, hlen, ← Nat.add_assoc, h₁.destination, hsame.2.1] at hany
  rw [hsame.2.1, hsame.2.2] at hdue
  rw [hpend] at hany hnone
  rw [hdefs] at hdue hrest
  refine ⟨definitions, records, ?_, ?_, ?_, ?_⟩
  · rw [h₂.dropped, h₁.dropped]
    obtain ⟨n', hg, ⟨heq, hitems⟩ | ⟨heq, hitems⟩⟩ := gathered_spec hn.ready time
    · rw [heq, hg.outlet]
      exact Or.inl ⟨rfl, hitems⟩
    · rw [heq, drop, hg.outlet]
      exact Or.inr ⟨rfl, hitems⟩
  · rw [hro, hto, hsame.1]
  · intro defined
    split
    · rename_i he
      exact hrest (not_not_intro he)
    · rename_i he
      exact hdue he
  · intro items
    split
    · rename_i he
      exact hnone (not_not_intro (grouped_eq_nil_iff.mpr he))
    · rename_i he
      exact hany (mt grouped_eq_nil_iff.mp he)

/-- A child's template message: one field of four octets under template 258. -/
def childTemplates : List UInt8 :=
  ({} : Exporter).message .compact .template 0
    (Frame.ofSet .compact .template 258 1 (FieldSpecifier.encode ⟨1, 4, 0⟩)).encode

/-- A child's data message: two records under template 258, and one flow. -/
def childRecords : List UInt8 :=
  ({} : Exporter).message .compact .data 0
    ((Frame.ofSet .compact .data 258 2 [0, 0, 0, 7, 0, 0, 0, 9]).encode
      ++ (Frame.ofSet .compact .data minTemplateId 1
        (FlowRecord.octets false ⟨.unspecified, 300, 2⟩)).encode)

/-- A period with a packet of the node's own, the messages of a child, and three octets that are
no message. -/
def sharedPeriod : List (UInt32 × NodeEvent) :=
  [(0, .traffic .unspecified 100), (0, .datagram childTemplates .unspecified),
    (0, .datagram [1, 2, 3] .unspecified), (0, .datagram childRecords .unspecified)]

/-- What an aggregator brings to a tick at this time of its own: its flows, and its definitions if
they are due. -/
def nextOwn (settings : ExportSettings) (time : UInt32) :
    Node (Journal τ) → Option (List FlowRecord × List (UInt16 × List FieldSpecifier))
  | .aggregator n => some (n.own.table.records, n.ownDefinitions settings time)
  | _ => none

/-- A tick behind that period forwards the child's template in front of the node's own two, and
the child's records with the node's own flow behind the child's under their common template. -/
theorem run_aggregator_shared_period :
    (Node.reportingConfig .aggregator).node.role = .aggregator ∧
      ∃ n₀, Node.start (Node.reportingConfig .aggregator) (⟨{}, []⟩ : Journal Recorder) = .ok n₀ ∧
        (n₀.merged sharedPeriod).flatMap (·.items)
          = [(258, [[0, 0, 0, 7], [0, 0, 0, 9]]),
            (minTemplateId, [FlowRecord.octets false ⟨.unspecified, 300, 2⟩])] ∧
        ∃ n, n₀.run sharedPeriod = .aggregator n ∧
          n.outlet.counters.dropped = 1 ∧ (n.tick 0).outlet.counters.dropped = 1 ∧
          ∃ definitions records : Datagram,
            (n.tick 0).outlet.handed = [definitions, records] ∧
            Encoding.compact.ReadsDefinitions definitions.payload 1
              ((258, [⟨1, 4, 0⟩]) :: (Node.reportingConfig .aggregator).exporting.definitions) ∧
            Encoding.compact.ReadsRecords records.payload 2
              [(258, [[0, 0, 0, 7], [0, 0, 0, 9]]),
                (minTemplateId, [FlowRecord.octets false ⟨.unspecified, 300, 2⟩,
                  FlowRecord.octets false ⟨.unspecified, 100, 1⟩]),
                (reportTemplateId, [Counters.octets { observed := 1, dropped := 1 }])] := by
  have hrole : (Node.reportingConfig .aggregator).node.role = .aggregator := rfl
  obtain ⟨n₀, hstart⟩ :=
    Node.start_reportingConfig .aggregator (by decide) (⟨{}, []⟩ : Journal Recorder)
  -- what was merged, what the node adds, and that nothing is dropped is computed
  have hmerged : ((n₀.merged sharedPeriod).flatMap (·.items),
      (n₀.merged sharedPeriod).flatMap (·.definitions))
        = ([(258, [[0, 0, 0, 7], [0, 0, 0, 9]]),
            (minTemplateId, [FlowRecord.octets false ⟨.unspecified, 300, 2⟩])],
          [(258, [⟨1, 4, 0⟩])]) :=
    Node.eq_of_map_start (f := fun node => ((node.merged sharedPeriod).flatMap (·.items),
      (node.merged sharedPeriod).flatMap (·.definitions))) hstart (by decide +kernel)
  obtain ⟨hitems, hdefinitions⟩ := Prod.mk.inj hmerged
  obtain ⟨n, hrun, hsequence, -, -, -, htick⟩ := run_aggregator hrole hstart sharedPeriod
  have hown : nextOwn (Node.reportingConfig .aggregator).exporting 0 (.aggregator n) = some
      ([⟨.unspecified, 100, 1⟩], (Node.reportingConfig .aggregator).exporting.definitions) :=
    Node.eq_of_map_run (f := nextOwn _ 0) hstart hrun (by decide +kernel)
  have hcounted : (n.outlet.handed.length, n.outlet.counters, (n.tick 0).outlet.counters.dropped)
      = (0, { observed := 1, dropped := 1 }, 1) :=
    Node.eq_of_map_run (f := fun node => (node.outlet.handed.length, node.outlet.counters,
      (node.handle 0 (.tick 0)).2.outlet.counters.dropped)) hstart hrun (by decide +kernel)
  simp only [nextOwn, Option.some.injEq, Prod.mk.injEq] at hown hcounted
  obtain ⟨hflows, hown⟩ := hown
  obtain ⟨hlength, hcounters, hdropped⟩ := hcounted
  obtain ⟨-, -, -, own, _, _, hkept, hhanded, hd, hr⟩ := htick 0
  -- the node's own records are not dropped
  have hrecords : own = (Node.reportingConfig .aggregator).exporting.recordSets
      [⟨.unspecified, 100, 1⟩] { observed := 1, dropped := 1 } := by
    rcases hkept with ⟨-, hkept⟩ | ⟨hlost, -⟩
    · rw [hkept, hflows, hcounters]
    · rw [hdropped, hcounters] at hlost
      exact absurd hlost (by decide)
  simp only [hdefinitions, hown, hsequence, hlength] at hd
  simp only [hitems, hrecords, hlength] at hr
  rw [if_neg (by decide)] at hd
  rw [if_neg (by decide)] at hr
  obtain ⟨definitions, rfl, hd⟩ := hd
  obtain ⟨records, rfl, hr⟩ := hr
  rw [List.length_eq_zero_iff.mp hlength] at hhanded
  exact ⟨hrole, n₀, hstart, hitems, n, hrun, by rw [hcounters], hdropped, _, _, hhanded, hd, hr⟩

end Run

end AggregatorNode

end FlowExport
