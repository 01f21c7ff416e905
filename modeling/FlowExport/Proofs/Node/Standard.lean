/-
# What a standard node exports

A standard node that was started is `Ready`: its buffer holds the longest message of its settings,
and its export was built for them.  It stays so whatever happens, so its messages are always
written (`emit_templates`, `emit_data`), and a tick hands on exactly what its schedule and its
table ask for (`sendTemplates_spec`, `sendData_spec`).  `run_standard` puts the run together:
the messages are numbered from one, and each tick exports the table and leaves it empty.
-/
import FlowExport.Proofs.Flow.FirstCome
import FlowExport.Proofs.Node.Start

namespace FlowExport

/-! ## 1. Schedules -/

theorem Schedule.isDue_iff (s : Schedule) : s.isDue = true ↔ s.every ∣ s.ticks := by
  rw [isDue, beq_iff_eq, Nat.dvd_iff_mod_eq_zero]

theorem Schedule.every_ofTicks {every : UInt32} (h : every ≠ 0) :
    (ofTicks every).every = every.toNat := by
  have hpos : 0 < every.toNat := Nat.pos_of_ne_zero fun h0 => h (UInt32.toNat_inj.mp h0)
  exact Nat.max_eq_left hpos

/-- Whether an event is the end of an export period. -/
def NodeEvent.isTick : NodeEvent → Bool
  | .tick _ => true
  | _ => false

/-- The ticks of a run. -/
def tickCount (events : List (UInt32 × NodeEvent)) : Nat :=
  events.countP (·.2.isTick)

theorem tickCount_concat (past : List (UInt32 × NodeEvent)) (clock : UInt32)
    (event : NodeEvent) : tickCount (past ++ [(clock, event)])
      = tickCount past + if event.isTick then 1 else 0 := by
  rw [tickCount, List.countP_append, List.countP_singleton]
  rfl

namespace StandardNode

variable {τ : Type}

/-! ## 2. One message -/

/-- **A node as it was started**, but for its table, its counters and its numbers. -/
structure Ready (config : Config) (n : StandardNode τ) : Prop where
  inRange : config.InRange
  encoding : n.encoding = config.exporting.encoding
  capacity : n.outlet.buffer.capacity = config.exporting.maxMessage
  built : n.own.Built config.exporting config.exporting.encoding
  every : n.schedule.every = config.exporting.refreshTicks.toNat

/-- **A node that was started** is ready, tracks nothing, and has sent nothing. -/
theorem ready_start [Transport τ] {config : Config} {transport : τ} {n₀ : Node τ}
    (hr : config.node.role = .standard) (h : Node.start config transport = .ok n₀) :
    ∃ n parent, n₀ = .standard n ∧ n.Ready config ∧ n.own.table.records = [] ∧
      n.schedule.ticks = 0 ∧ n.outlet = .ofTransport transport parent config.exporting.domain
        config.exporting.maxMessage := by
  obtain ⟨hin, own, parent, -, hown, hn₀⟩ := Node.start_standard hr h
  obtain ⟨hbuilt, htable⟩ := LocalExport.build_ok hown
  exact ⟨_, parent, hn₀, ⟨hin, rfl, Buffer.capacity_ofCapacity _, hbuilt,
    Schedule.every_ofTicks hin.refresh_ne⟩, htable, rfl, rfl⟩

section Ready

variable {config : Config} {n : StandardNode τ} (h : n.Ready config) (time : UInt32)

include h

theorem Ready.templateId_le :
    config.exporting.encoding = .compact → config.exporting.templateId ≤ maxCompactId := by
  intro he
  refine h.inRange.id_le ?_
  simp [Config.usesCompact, he]

/-- Sending leaves everything but the outlet as it is. -/
theorem Ready.withOutlet {o : Outlet τ} (ho : o.buffer.capacity = n.outlet.buffer.capacity) :
    Ready config { n with outlet := o } :=
  ⟨h.inRange, h.encoding, ho.trans h.capacity, h.built, h.every⟩

theorem Ready.observe (destination : Address) (bytes : UInt64) :
    (n.observe destination bytes).2.Ready config :=
  ⟨h.inRange, h.encoding, h.capacity, h.built.withTable (FlowTable.update_capacity _ _ _),
    h.every⟩

theorem Ready.hasData_iff : n.own.hasData = true ↔
    n.own.table.records ≠ [] ∨ config.exporting.reportsCounters = true := by
  rw [LocalExport.hasData, h.built.reports, Bool.or_eq_true, Bool.not_eq_true', FlowTable.isEmpty,
    List.isEmpty_eq_false_iff]

variable [Transport τ]

/-- **The templates are always written.** -/
theorem emit_templates : ∃ payload,
    (n.outlet.emit n.encoding .template time (n.own.write n.outlet.counters .template)).1
      = .ok () ∧
    Outlet.Hands n.outlet (n.sendOwn .template time).outlet payload ∧
    payload.length ≤ config.exporting.maxMessage ∧
    config.exporting.encoding.ReadsDefinitions payload n.outlet.exporter.sequence
      config.exporting.definitions := by
  obtain ⟨payload, buffer, hc, hb, hl, hr⟩ := LocalExport.compose_write_template h.built
    h.templateId_le h.inRange.message_le h.capacity n.outlet.exporter time n.outlet.counters
  rw [← h.encoding] at hc
  obtain ⟨ho, hh⟩ := Outlet.emit_ok hc (hb.trans h.capacity.symm)
  exact ⟨payload, ho, hh, hl, hr⟩

/-- **The records are always written.** -/
theorem emit_data : ∃ payload,
    (n.outlet.emit n.encoding .data time (n.own.write n.outlet.counters .data)).1 = .ok () ∧
    Outlet.Hands n.outlet (n.sendOwn .data time).outlet payload ∧
    payload.length ≤ config.exporting.maxMessage ∧
    config.exporting.encoding.ReadsRecords payload n.outlet.exporter.sequence
      (config.exporting.recordSets n.own.table.records n.outlet.counters) := by
  obtain ⟨payload, buffer, hc, hb, hl, hr⟩ := LocalExport.compose_write_data h.built
    h.templateId_le h.inRange.message_le h.capacity n.outlet.exporter time n.outlet.counters
  rw [← h.encoding] at hc
  obtain ⟨ho, hh⟩ := Outlet.emit_ok hc (hb.trans h.capacity.symm)
  exact ⟨payload, ho, hh, hl, hr⟩

/-! ## 3. One tick -/

/-- **The templates go out when the ticks so far are a multiple of the refresh period.** -/
theorem sendTemplates_spec :
    Outlet.HandsIf (config.exporting.refreshTicks.toNat ∣ n.schedule.ticks)
      config.exporting.maxMessage
      (config.exporting.encoding.ReadsDefinitions · n.outlet.exporter.sequence
        config.exporting.definitions) n.outlet (n.sendTemplates time).outlet := by
  have hdue := n.schedule.isDue_iff
  rw [h.every] at hdue
  constructor
  · intro hd
    obtain ⟨payload, -, hh, hl, hr⟩ := emit_templates h time
    refine ⟨payload, ?_, hl, hr⟩
    simp only [sendTemplates, hdue.mpr hd, if_true]
    exact hh
  · intro hd
    have hno : n.schedule.isDue = false := Bool.eq_false_iff.mpr (mt hdue.mp hd)
    simp [sendTemplates, hno]

theorem sendTemplates_ready : (n.sendTemplates time).Ready config := by
  obtain ⟨payload, -, hh, -, -⟩ := emit_templates h time
  unfold sendTemplates
  cases n.schedule.isDue with
  | true => exact ⟨h.inRange, h.encoding, hh.capacity.trans h.capacity, h.built, h.every⟩
  | false => exact ⟨h.inRange, h.encoding, h.capacity, h.built, h.every⟩

omit h in
theorem own_sendTemplates (n : StandardNode τ) (time : UInt32) :
    (n.sendTemplates time).own = n.own := by
  unfold sendTemplates
  cases n.schedule.isDue <;> rfl

omit h in
theorem schedule_sendTemplates (n : StandardNode τ) (time : UInt32) :
    (n.sendTemplates time).schedule = n.schedule.advance := rfl

/-- **The records go out when there are any.** -/
theorem sendData_spec :
    Outlet.HandsIf (n.own.table.records ≠ [] ∨ config.exporting.reportsCounters = true)
      config.exporting.maxMessage
      (config.exporting.encoding.ReadsRecords · n.outlet.exporter.sequence
        (config.exporting.recordSets n.own.table.records n.outlet.counters))
      n.outlet (n.sendData time).outlet := by
  have hdata := h.hasData_iff
  constructor
  · intro hd
    obtain ⟨payload, -, hh, hl, hr⟩ := emit_data h time
    refine ⟨payload, ?_, hl, hr⟩
    rw [sendData, hdata.mpr hd, if_pos rfl]
    exact hh
  · intro hd
    have hno : n.own.hasData = false := Bool.eq_false_iff.mpr (mt hdata.mp hd)
    rw [sendData, hno]
    rfl

theorem sendData_ready : (n.sendData time).Ready config := by
  obtain ⟨payload, -, hh, -, -⟩ := emit_data h time
  unfold sendData
  cases n.own.hasData with
  | true => exact h.withOutlet hh.capacity
  | false => exact h

omit h in
theorem schedule_sendData (n : StandardNode τ) (time : UInt32) :
    (n.sendData time).schedule = n.schedule := by
  unfold sendData
  cases n.own.hasData <;> rfl

theorem tick_ready : (n.tick time).Ready config := by
  have h₁ := sendData_ready (sendTemplates_ready h time) time
  exact ⟨h₁.inRange, h₁.encoding, h₁.capacity, h₁.built.withTable rfl, h₁.every⟩

end Ready

/-! ## 4. Runs -/

section Run

variable [Transport τ] {config : Config} {events : List (UInt32 × NodeEvent)}
  {n : StandardNode (Journal τ)}

/-- **A standard node after some events.** -/
structure Reached (config : Config) (events : List (UInt32 × NodeEvent))
    (n : StandardNode (Journal τ)) : Prop where
  ready : n.Ready config
  ticks : n.schedule.ticks = tickCount events
  logged : n.outlet.Logged config.exporting.encoding config.exporting.maxMessage

theorem Reached.tick (h : Reached config events n) (clock time : UInt32) :
    Reached config (events ++ [(clock, .tick time)]) (n.tick time) := by
  refine ⟨tick_ready h.ready time, ?_, ?_⟩
  · change ((n.sendTemplates time).sendData time).schedule.ticks = _
    rw [schedule_sendData, schedule_sendTemplates, tickCount_concat, ← h.ticks]
    rfl
  · have hlog := h.logged.definitions (sendTemplates_spec h.ready time)
    exact hlog.records (sendData_spec (sendTemplates_ready h.ready time) time)

/-- **What is true of every run of a standard node.** -/
theorem reached_run {transport : τ} {n₀ : Node (Journal τ)}
    (hr : config.node.role = .standard) (h : Node.start config ⟨transport, []⟩ = .ok n₀)
    (events : List (UInt32 × NodeEvent)) :
    ∃ n, n₀.run events = .standard n ∧ Reached config events n := by
  obtain ⟨n, parent, rfl, hready, -, hticks, hout⟩ := ready_start hr h
  refine Node.run_induction (P := fun events node => ∃ n, node = .standard n ∧
    Reached config events n) ?_ ?_ events
  · exact ⟨n, rfl, hready, hticks, by rw [hout]; exact .ofTransport _ _ _ _ _ _⟩
  · rintro past clock event ⟨n, hrun, hn⟩
    rw [hrun]
    cases event with
    | tick time => exact ⟨_, rfl, hn.tick clock time⟩
    | datagram payload sender =>
      exact ⟨n, rfl, hn.ready, by rw [tickCount_concat, hn.ticks]; rfl, hn.logged⟩
    | traffic destination bytes =>
      exact ⟨_, rfl, hn.ready.observe destination bytes,
        by rw [tickCount_concat, ← hn.ticks]; rfl, hn.logged.congr rfl rfl rfl rfl⟩

/-- **What a standard node exports**, in every run and with every transport.  Its messages are
always written, numbered from one without a gap, and no longer than configured.  A tick hands on
its templates when the ticks so far are a multiple of the refresh period, then its records when
there are any: every flow of the table in order, and the counters as they stand by then.  The
table is empty afterwards, and between ticks nothing is handed on. -/
theorem run_standard {transport : τ} {n₀ : Node (Journal τ)}
    (hr : config.node.role = .standard) (h : Node.start config ⟨transport, []⟩ = .ok n₀)
    (events : List (UInt32 × NodeEvent)) :
    ∃ n, n₀.run events = .standard n ∧
      n.outlet.exporter.sequence = UInt32.ofNat (1 + n.outlet.handed.length) ∧
      n.outlet.counters.sent + n.outlet.counters.failed
        = UInt32.ofNat n.outlet.handed.length ∧
      (∀ (k : Nat) (d : Datagram), n.outlet.handed[k]? = some d →
        d.payload.length ≤ config.exporting.maxMessage ∧
        config.exporting.encoding.ReadsNumber d.payload (1 + k)) ∧
      (∀ (clock : UInt32) (event : NodeEvent), event.isTick = false →
        ((Node.standard n).handle clock event).2.outlet.handed = n.outlet.handed) ∧
      ∀ time : UInt32,
        (n.outlet.emit n.encoding .template time
          (n.own.write n.outlet.counters .template)).1 = .ok () ∧
        (n.outlet.emit n.encoding .data time (n.own.write n.outlet.counters .data)).1
          = .ok () ∧
        (n.tick time).own.table.records = [] ∧
        ∃ templates records : List Datagram,
          (n.tick time).outlet.handed = n.outlet.handed ++ templates ++ records ∧
          (if config.exporting.refreshTicks.toNat ∣ tickCount events then
            ∃ payload, templates = [⟨payload, n.outlet.destination⟩] ∧
              config.exporting.encoding.ReadsDefinitions payload n.outlet.exporter.sequence
                config.exporting.definitions
          else templates = []) ∧
          (if n.own.table.records ≠ [] ∨ config.exporting.reportsCounters = true then
            ∃ payload, records = [⟨payload, n.outlet.destination⟩] ∧
              config.exporting.encoding.ReadsRecords payload
                (n.sendTemplates time).outlet.exporter.sequence
                (config.exporting.recordSets n.own.table.records
                  (n.sendTemplates time).outlet.counters)
          else records = []) := by
  obtain ⟨n, hrun, hn⟩ := reached_run hr h events
  refine ⟨n, hrun, hn.logged.sequence, hn.logged.sent_add_failed, hn.logged.message, ?_, ?_⟩
  · intro clock event he
    cases event with
    | tick time => simp [NodeEvent.isTick] at he
    | datagram payload sender => rfl
    | traffic destination bytes => rfl
  intro time
  obtain ⟨-, ht, -⟩ := emit_templates hn.ready time
  obtain ⟨-, hd, -⟩ := emit_data hn.ready time
  refine ⟨ht, hd, rfl, ?_⟩
  have h₁ := sendTemplates_spec hn.ready time
  have h₂ := sendData_spec (sendTemplates_ready hn.ready time) time
  rw [own_sendTemplates] at h₂
  rw [hn.ticks] at h₁
  -- each of the two messages is there or not, independently of the other
  obtain ⟨templates, hto, hdue, hrest⟩ := h₁.handed
  obtain ⟨records, hro, hany, hnone⟩ := h₂.handed
  rw [h₁.destination] at hany
  refine ⟨templates, records, ?_, ?_, ?_⟩
  · change ((n.sendTemplates time).sendData time).outlet.handed = _
    rw [hro, hto]
  · split
    · rename_i hd
      exact hdue hd
    · rename_i hd
      exact hrest hd
  · split
    · rename_i hd
      exact hany hd
    · rename_i hd
      exact hnone hd

/-- How many messages a leaf has handed on, and what the records of a tick at this time are written
from: its flows, and the counters and the number as they stand behind the templates. -/
def nextRecords (time : UInt32) :
    Node (Journal τ) → Option (Nat × List FlowRecord × Counters × UInt32)
  | .standard n => some (n.outlet.handed.length, n.own.table.records,
      (n.sendTemplates time).outlet.counters, (n.sendTemplates time).outlet.exporter.sequence)
  | _ => none

/-- One packet in each of two periods: the first tick hands on the templates and the first packet,
the second one, on which templates are not due, the second packet alone. -/
theorem run_standard_two_periods :
    (Node.reportingConfig .standard).node.role = .standard ∧
      ∃ n₀, Node.start (Node.reportingConfig .standard) (⟨{}, []⟩ : Journal Recorder) = .ok n₀ ∧
        ∃ n, n₀.run [(0, .traffic .unspecified 100), (0, .tick 0),
            (60, .traffic .unspecified 40)] = .standard n ∧
          (n.tick 60).own.table.records = [] ∧
          ∃ templates first second : Datagram,
            (n.tick 60).outlet.handed = [templates, first, second] ∧
            Encoding.compact.ReadsDefinitions templates.payload 1
              (Node.reportingConfig .standard).exporting.definitions ∧
            Encoding.compact.ReadsRecords first.payload 2
              ((Node.reportingConfig .standard).exporting.recordSets
                [⟨.unspecified, 100, 1⟩] { observed := 1, sent := 1 }) ∧
            Encoding.compact.ReadsRecords second.payload 3
              ((Node.reportingConfig .standard).exporting.recordSets
                [⟨.unspecified, 40, 1⟩] { observed := 2, sent := 2 }) := by
  have hrole : (Node.reportingConfig .standard).node.role = .standard := rfl
  obtain ⟨n₀, hstart⟩ :=
    Node.start_reportingConfig .standard (by decide) (⟨{}, []⟩ : Journal Recorder)
  -- the first period and its tick, on which the templates are due
  obtain ⟨n₁, hrun₁, hsequence₁, -, -, -, htick₁⟩ :=
    run_standard hrole hstart [(0, .traffic .unspecified 100)]
  have hnext₁ : nextRecords 0 (.standard n₁)
      = some (0, [⟨.unspecified, 100, 1⟩], { observed := 1, sent := 1 }, 2) :=
    Node.eq_of_map_run (f := nextRecords 0) hstart hrun₁ (by decide +kernel)
  simp only [nextRecords, Option.some.injEq, Prod.mk.injEq] at hnext₁
  obtain ⟨hlength₁, hflows₁, hcounters₁, hnumber₁⟩ := hnext₁
  obtain ⟨-, -, -, _, _, hhanded₁, htemplates, hfirst⟩ := htick₁ 0
  rw [if_pos (by decide), hsequence₁, hlength₁] at htemplates
  rw [if_pos (Or.inr (by decide)), hflows₁, hcounters₁, hnumber₁] at hfirst
  obtain ⟨templates, rfl, htemplates⟩ := htemplates
  obtain ⟨first, rfl, hfirst⟩ := hfirst
  -- the second period and its tick, on which they are not
  obtain ⟨n, hrun, -, -, -, -, htick⟩ := run_standard hrole hstart
    [(0, .traffic .unspecified 100), (0, .tick 0), (60, .traffic .unspecified 40)]
  have hn : n = ((n₁.tick 0).observe .unspecified 40).2 := by
    have hsteps := hrun
    change (((n₀.run [(0, .traffic .unspecified 100)]).handle 0 (.tick 0)).2.handle 60
      (.traffic .unspecified 40)).2 = _ at hsteps
    rw [hrun₁] at hsteps
    exact (Node.standard.inj hsteps).symm
  have hnext : nextRecords 60 (.standard n)
      = some (2, [⟨.unspecified, 40, 1⟩], { observed := 2, sent := 2 }, 3) :=
    Node.eq_of_map_run (f := nextRecords 60) hstart hrun (by decide +kernel)
  simp only [nextRecords, Option.some.injEq, Prod.mk.injEq] at hnext
  obtain ⟨-, hflows, hcounters, hnumber⟩ := hnext
  obtain ⟨-, -, hempty, _, _, hhanded, hnone, hsecond⟩ := htick 60
  rw [if_neg (by decide)] at hnone
  rw [if_pos (Or.inr (by decide)), hflows, hcounters, hnumber] at hsecond
  obtain ⟨second, rfl, hsecond⟩ := hsecond
  have hbefore : n.outlet.handed = (n₁.tick 0).outlet.handed := by
    rw [hn]
    rfl
  rw [hbefore, hhanded₁, List.length_eq_zero_iff.mp hlength₁, hnone] at hhanded
  exact ⟨hrole, n₀, hstart, n, hrun, hempty, _, _, _, hhanded, htemplates, hfirst, hsecond⟩

end Run

end StandardNode

end FlowExport
