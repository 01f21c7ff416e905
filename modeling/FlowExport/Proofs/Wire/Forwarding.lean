/-
# What an aggregation holds can be forwarded

Whatever an aggregation has been through, its places are in order (`Sound`), and what is in them
makes a message of the announced length, on any buffer that has room for the longest; a reader
accepts it and finds the places in order (`run_forwards`).

Both groups of places are written as sets whose bodies are copied as they are, without a look at
what is in them.  That the reader takes them is so because the places hold what the grammar asks
of a set of their kind (`DataSlot.WellFormed.grammatical`, `TemplateSlot.WellFormed.grammatical`);
the rest is said of sets of the grammar once, for both kinds
(`CompactMessage.compose_grammatical`).
-/
import FlowExport.Proofs.Wire.Composition
import FlowExport.Proofs.Wire.Grammar
import FlowExport.Proofs.Wire.ManyMessages

namespace FlowExport

/-! ## 1. Sets of the grammar, written and read -/

theorem CompactSet.length_octets (s : CompactSet) :
    s.octets.length = Aggregation.setLength s.body := by
  simp only [octets, List.length_cons, List.length_append, Octets.length_ofNat,
    Aggregation.setLength, Encoding.setHeaderLength]

namespace CompactMessage

/-- The length of the compact message of these sets. -/
def lengthOf (sets : List CompactSet) : Nat :=
  Encoding.compact.headerLength + total (sets.map fun s => Aggregation.setLength s.body)

theorem length_flatMap_octets (sets : List CompactSet) :
    5 + (sets.flatMap (·.octets)).length = lengthOf sets := by
  simp only [lengthOf, total_eq_sum, List.length_flatMap, CompactSet.length_octets,
    Encoding.headerLength]

theorem length_message (x : Exporter) (kind : Kind) (time : UInt32) (sets : List CompactSet) :
    (x.message .compact kind time (sets.flatMap (·.octets))).length = lengthOf sets := by
  rw [Exporter.length_message, ← length_flatMap_octets]
  rfl

section Composed

variable {kind : Kind} {sets : List CompactSet} (h : ∀ s ∈ sets, s.Grammatical kind)
  (hmax : lengthOf sets ≤ maxLength) (x : Exporter) (time : UInt32)

include hmax

/-- The length of the message can be announced. -/
theorem toNat_lengthOf : (UInt16.ofNat (lengthOf sets)).toNat = lengthOf sets :=
  UInt16.toNat_ofNat_of_lt (Nat.lt_succ_of_le hmax)

include h

/-- **Sets of the grammar behind a header** are a message of the grammar. -/
theorem spells_message : Spells (x.message .compact kind time (sets.flatMap (·.octets))) kind
    (UInt16.ofNat x.sequence.toNat) (UInt16.ofNat (lengthOf sets)) sets := by
  have hlength := toNat_lengthOf hmax
  have htotal := length_message x kind time sets
  have hbytes : x.message .compact kind time (sets.flatMap (·.octets))
      = kind.firstOctet :: (Octets.ofNat 2 (UInt16.ofNat x.sequence.toNat).toNat
        ++ Octets.ofNat 2 (UInt16.ofNat (lengthOf sets)).toNat) ++ sets.flatMap (·.octets) := by
    rw [Octets.ofNat_low, hlength, ← length_flatMap_octets, Kind.firstOctet_eq]
    rfl
  refine ⟨?_, ?_, ?_, ?_, h⟩
  · rw [hbytes]
    rfl
  · rw [hlength]
    exact Nat.le_add_right 5 _
  · rw [hlength, htotal]
  · rw [hlength, ← htotal, List.take_length, hbytes]
    rfl

/-- **They are written where they fit**, and read as they are. -/
theorem compose_grammatical {buffer : Buffer} (hcap : lengthOf sets ≤ buffer.capacity) :
    ∃ payload message, (Draft.compose buffer x .compact kind time (Draft.fillAll
        (sets.map fun s => Draft.addRaw s.template s.count.toNat s.body))).1 = .ok payload ∧
      payload.length = lengthOf sets ∧ parse payload = .ok message ∧ message.kind = kind ∧
      message.sets = sets := by
  have hs := spells_message h hmax x time
  have htotal := length_message x kind time sets
  have hwritten := hs.compose_sets time rfl (by rw [toNat_lengthOf hmax]; exact hcap)
  rw [toNat_lengthOf hmax, ← htotal, List.take_length] at hwritten
  exact ⟨_, _, hwritten, htotal, hs.parse, rfl, hs.sets_eq _⟩

omit hmax in
/-- **What was written of them**, wherever it was, is read as they are. -/
theorem sets_of_compose {buffer : Buffer} {payload : List UInt8} {message : CompactMessage}
    (hw : (Draft.compose buffer x .compact kind time (Draft.fillAll
      (sets.map fun s => Draft.addRaw s.template s.count.toNat s.body))).1 = .ok payload)
    (hp : parse payload = .ok message) : message.sets = sets := by
  have happends : ∀ s ∈ sets, Draft.Appends .compact kind
      (Draft.addRaw s.template s.count.toNat s.body)
      (Frame.ofSet .compact kind s.template s.count.toNat s.body) := by
    intro s _
    have happend := Draft.appends_addPieces .compact kind s.template s.count.toNat [s.body]
    rwa [List.flatten_singleton] at happend
  -- the buffer may be of any size: that it was written says that it fitted
  obtain ⟨⟨rfl, -, hfits⟩, -⟩ := Draft.compose_eq_ok happends hw
  rw [← flatMap_octets] at hfits hp
  have hs := spells_message h (by rwa [← length_flatMap_octets]) x time
  rw [hs.parse] at hp
  obtain rfl := Except.ok.inj hp
  exact hs.sets_eq _

end Composed

end CompactMessage

/-! ## 2. Places as sets -/

/-- The set that a place for data is written as. -/
def DataSlot.toSet (slot : DataSlot) : CompactSet :=
  ⟨slot.template, UInt8.ofNat slot.count, slot.bytes⟩

/-- The set that a place for a definition is written as. -/
def TemplateSlot.toSet (slot : TemplateSlot) : CompactSet :=
  ⟨slot.template, UInt8.ofNat slot.fields, slot.specifiers⟩

/-- The number of records is one that a set can count. -/
theorem DataSlot.WellFormed.count_toSet {slot : DataSlot} (h : slot.WellFormed) :
    slot.toSet.count.toNat = slot.count :=
  UInt8.toNat_ofNat_of_lt (Nat.lt_succ_of_le h.count_le)

/-- The number of fields is one that a set can count. -/
theorem TemplateSlot.WellFormed.count_toSet {slot : TemplateSlot} (h : slot.WellFormed) :
    slot.toSet.count.toNat = slot.fields :=
  UInt8.toNat_ofNat_of_lt (Nat.lt_succ_of_le h.fields_le)

/-- **Whole records** are the body of a data set. -/
theorem DataSlot.WellFormed.grammatical {slot : DataSlot} (h : slot.WellFormed) :
    slot.toSet.Grammatical .data := by
  have hcount := h.count_toSet
  refine ⟨h.id_ge, h.id_le, ?_⟩
  change slot.toSet.count = 0 ∧ slot.bytes = [] ∨
    slot.toSet.count ≠ 0 ∧ slot.bytes ≠ [] ∧ slot.toSet.count.toNat ∣ slot.bytes.length
  rw [hcount, h.length]
  rcases Nat.eq_zero_or_pos slot.count with h0 | hpos
  · refine Or.inl ⟨UInt8.toNat_inj.mp (hcount.trans h0), List.length_eq_zero_iff.mp ?_⟩
    rw [h.length, h0, Nat.zero_mul]
  · refine Or.inr ⟨fun hc => ?_, fun hb => ?_, Nat.dvd_mul_right _ _⟩
    · rw [hc] at hcount
      exact Nat.ne_of_gt hpos hcount.symm
    · have hlength := h.length
      rw [hb, List.length_nil] at hlength
      exact Nat.ne_of_gt (Nat.mul_pos hpos h.width_pos) hlength.symm

/-- **As many specifiers as are counted** are the body of a template set. -/
theorem TemplateSlot.WellFormed.grammatical {slot : TemplateSlot} (h : slot.WellFormed) :
    slot.toSet.Grammatical .template :=
  ⟨h.id_ge, h.id_le, slot.definition.2, h.length.trans h.count_toSet.symm, h.valid,
    h.octets⟩

namespace Aggregation

theorem DataInv.grammatical {a : Aggregation} (h : a.DataInv) :
    ∀ s ∈ a.data.map (·.toSet), s.Grammatical .data := by
  intro s hs
  obtain ⟨slot, hslot, rfl⟩ := List.mem_map.mp hs
  exact (h.slots slot hslot).grammatical

theorem TemplateInv.grammatical {a : Aggregation} (h : a.TemplateInv) :
    ∀ s ∈ a.templates.map (·.toSet), s.Grammatical .template := by
  intro s hs
  obtain ⟨slot, hslot, rfl⟩ := List.mem_map.mp hs
  exact (h.slots slot hslot).grammatical

theorem lengthOf_toSet_data (a : Aggregation) :
    CompactMessage.lengthOf (a.data.map (·.toSet)) = a.dataMessageLength := by
  rw [CompactMessage.lengthOf, List.map_map]
  rfl

theorem lengthOf_toSet_templates (a : Aggregation) :
    CompactMessage.lengthOf (a.templates.map (·.toSet)) = a.templateMessageLength := by
  rw [CompactMessage.lengthOf, List.map_map]
  rfl

section Written

variable {a : Aggregation} (hmax : a.maxMessage ≤ maxLength) {buffer : Buffer}
  (hcap : a.maxMessage ≤ buffer.capacity) (x : Exporter) (time : UInt32)

theorem writeData_eq_sets (h : a.DataInv) : a.writeData = Draft.fillAll
    ((a.data.map (·.toSet)).map fun s => Draft.addRaw s.template s.count.toNat s.body) := by
  rw [writeData, List.map_map]
  refine congrArg Draft.fillAll (List.map_congr_left fun slot hs => ?_)
  rw [Function.comp_apply, (h.slots slot hs).count_toSet]
  rfl

theorem writeTemplates_eq_sets (h : a.TemplateInv) : a.writeTemplates = Draft.fillAll
    ((a.templates.map (·.toSet)).map fun s =>
      Draft.addRaw s.template s.count.toNat s.body) := by
  rw [writeTemplates, List.map_map]
  refine congrArg Draft.fillAll (List.map_congr_left fun slot hs => ?_)
  rw [Function.comp_apply, (h.slots slot hs).count_toSet]
  rfl

include hmax hcap

/-- **The data message** that is written holds the places for data. -/
theorem forward_data (h : a.DataInv) :
    ∃ payload message, (Draft.compose buffer x .compact .data time a.writeData).1 = .ok payload ∧
      payload.length = a.dataMessageLength ∧ CompactMessage.parse payload = .ok message ∧
      message.kind = .data ∧ message.sets = a.data.map (·.toSet) := by
  rw [writeData_eq_sets h, ← lengthOf_toSet_data]
  refine CompactMessage.compose_grammatical h.grammatical ?_ x time ?_
  · rw [lengthOf_toSet_data]
    exact Nat.le_trans h.length hmax
  · rw [lengthOf_toSet_data]
    exact Nat.le_trans h.length hcap

/-- **The template message** that is written holds the places for definitions. -/
theorem forward_templates (h : a.TemplateInv) :
    ∃ payload message,
      (Draft.compose buffer x .compact .template time a.writeTemplates).1 = .ok payload ∧
      payload.length = a.templateMessageLength ∧ CompactMessage.parse payload = .ok message ∧
      message.kind = .template ∧ message.sets = a.templates.map (·.toSet) := by
  rw [writeTemplates_eq_sets h, ← lengthOf_toSet_templates]
  refine CompactMessage.compose_grammatical h.grammatical ?_ x time ?_
  · rw [lengthOf_toSet_templates]
    exact Nat.le_trans h.length hmax
  · rw [lengthOf_toSet_templates]
    exact Nat.le_trans h.length hcap

end Written

/-! ## 3. The main statement -/

/-- **What is always true** of an aggregation for so many places and messages of such a length. -/
structure Sound (maxTemplates maxMessage : Nat) (a : Aggregation) : Prop where
  dataPlaces : a.data.length ≤ maxTemplates
  templatePlaces : a.templates.length ≤ maxTemplates
  dataIds : (a.data.map (·.template)).Nodup
  templateIds : (a.templates.map (·.template)).Nodup
  ids : ∀ id ∈ a.data.map (·.template) ++ a.templates.map (·.template),
    256 ≤ id.toNat ∧ id.toNat ≤ 511
  count : ∀ slot ∈ a.data, 1 ≤ slot.count ∧ slot.count ≤ 255
  /-- The records are whole and of one width. -/
  bytes : ∀ slot ∈ a.data, 0 < slot.width ∧ slot.bytes.length = slot.count * slot.width
  specifiers : ∀ slot ∈ a.templates, ∃ fields : List FieldSpecifier,
    fields.length = slot.fields ∧ (∀ f ∈ fields, f.Valid) ∧
      slot.specifiers = fields.flatMap (·.encode)
  dataLength : a.dataMessageLength ≤ maxMessage
  templateLength : a.templateMessageLength ≤ maxMessage

theorem Settled.sound {n m : Nat} {a : Aggregation} (h : a.Settled n m) : a.Sound n m := by
  obtain ⟨hd, ht⟩ := h.inv
  have hdata := hd.places
  have htemplates := ht.places
  have hdataLength := hd.length
  have htemplateLength := ht.length
  rw [h.maxTemplates] at hdata htemplates
  rw [h.maxMessage] at hdataLength htemplateLength
  refine ⟨hdata, htemplates, hd.nodup, ht.nodup, ?_, ?_, ?_, ?_, hdataLength, htemplateLength⟩
  · intro id hid
    have hrange : minTemplateId ≤ id ∧ id ≤ maxCompactId := by
      rcases List.mem_append.mp hid with hid | hid
      · obtain ⟨slot, hs, rfl⟩ := List.mem_map.mp hid
        exact ⟨(hd.slots slot hs).id_ge, (hd.slots slot hs).id_le⟩
      · obtain ⟨slot, hs, rfl⟩ := List.mem_map.mp hid
        exact ⟨(ht.slots slot hs).id_ge, (ht.slots slot hs).id_le⟩
    exact ⟨UInt16.le_iff_toNat_le.mp hrange.1, UInt16.le_iff_toNat_le.mp hrange.2⟩
  · intro slot hs
    have hrecords : slot.records ≠ [] := h.filled _ (List.mem_map.mpr ⟨slot, hs, rfl⟩)
    have hpos := List.length_pos_of_ne_nil hrecords
    rw [(hd.slots slot hs).length_records] at hpos
    exact ⟨hpos, (hd.slots slot hs).count_le⟩
  · intro slot hs
    exact ⟨(hd.slots slot hs).width_pos, (hd.slots slot hs).length⟩
  · intro slot hs
    exact ⟨_, (ht.slots slot hs).length, (ht.slots slot hs).valid, (ht.slots slot hs).octets⟩

/-- **What an aggregation holds can be forwarded**, whatever it has been through: its places are in
order, and on any buffer with room for the longest message either group of them is written, at the
announced length, as a message that is read back as these places in this order.  The records that
the reader counts are those pending. -/
theorem run_forwards {n m : Nat} (hm : Encoding.compact.headerLength ≤ m) (hmax : m ≤ maxLength)
    (past : List Operation) :
    let a := (empty n m).run past
    a.Sound n m ∧
    ∀ (buffer : Buffer) (x : Exporter) (time : UInt32), m ≤ buffer.capacity →
      (∃ payload message,
        (Draft.compose buffer x .compact .data time a.writeData).1 = .ok payload ∧
        payload.length = a.dataMessageLength ∧
        CompactMessage.parse payload = .ok message ∧ message.kind = .data ∧
        message.sets.map (fun s => (s.template, s.count.toNat, s.body))
          = a.data.map (fun slot => (slot.template, slot.count, slot.bytes)) ∧
        message.recordCount = a.recordCount) ∧
      ∃ payload message,
        (Draft.compose buffer x .compact .template time a.writeTemplates).1 = .ok payload ∧
        payload.length = a.templateMessageLength ∧
        CompactMessage.parse payload = .ok message ∧ message.kind = .template ∧
        message.sets.map (fun s => (s.template, s.count.toNat, s.body))
          = a.templates.map (fun slot => (slot.template, slot.fields, slot.specifiers)) := by
  intro a
  have hs : a.Settled n m := (settled_empty n hm).run past
  refine ⟨hs.sound, fun buffer x time hcap => ?_⟩
  rw [← hs.maxMessage] at hmax hcap
  obtain ⟨hd, ht⟩ := hs.inv
  constructor
  · obtain ⟨payload, message, hw, hl, hp, hk, hsets⟩ := forward_data hmax hcap x time hd
    have hcounts : a.data.map (fun slot => slot.toSet.count.toNat) = a.data.map (·.count) :=
      List.map_congr_left fun slot hslot => (hd.slots slot hslot).count_toSet
    refine ⟨payload, message, hw, hl, hp, hk, ?_, ?_⟩
    · rw [hsets, List.map_map]
      refine List.map_congr_left fun slot hslot => ?_
      exact congrArg (slot.template, ·, slot.bytes) (hd.slots slot hslot).count_toSet
    · simp only [CompactMessage.recordCount, hk, hsets, List.map_map, Function.comp_def, hcounts]
      rfl
  · obtain ⟨payload, message, hw, hl, hp, hk, hsets⟩ := forward_templates hmax hcap x time ht
    refine ⟨payload, message, hw, hl, hp, hk, ?_⟩
    rw [hsets, List.map_map]
    refine List.map_congr_left fun slot hslot => ?_
    exact congrArg (slot.template, ·, slot.specifiers) (ht.slots slot hslot).count_toSet

/-- What two messages brought is forwarded in a message of 18 octets, the most that there may be. -/
theorem run_forwards_otherFirst :
    Encoding.compact.headerLength ≤ 18 ∧ 18 ≤ maxLength ∧
    ∃ payload message, (Draft.compose (.ofCapacity 18) {} .compact .data 0
        ((empty 2 18).mergeAll [oneRecord, otherFirst]).writeData).1 = .ok payload ∧
      payload.length = 18 ∧ CompactMessage.parse payload = .ok message ∧
      message.sets.map (fun s => (s.template, s.count.toNat, s.body))
        = [(256, 2, [1, 2, 4, 5]), (257, 1, [3])] ∧
      message.recordCount = 3 := by
  have hm : Encoding.compact.headerLength ≤ 18 := by decide
  have hmax : 18 ≤ maxLength := by decide
  obtain ⟨-, hforward⟩ := run_forwards (n := 2) hm hmax ([oneRecord, otherFirst].map (·.merging))
  obtain ⟨⟨payload, message, hw, hl, hp, -, hsets, hcount⟩, -⟩ :=
    hforward (.ofCapacity 18) {} 0 (by decide)
  have hd := (((settled_empty 2 hm).mergeAll [oneRecord, otherFirst]).inv).data
  obtain ⟨-, hpend⟩ := pending_oneRecord
  refine ⟨hm, hmax, payload, message, hw, hl.trans ?_, hp, hsets.trans ?_, hcount.trans ?_⟩
  · refine (lengthOf_pending hd).symm.trans ?_
    rw [hpend]
    decide
  · refine (data_eq_pending hd).trans ?_
    rw [hpend]
    decide
  · refine (recordCount_eq hd).trans ?_
    rw [hpend]
    decide

end Aggregation

end FlowExport
