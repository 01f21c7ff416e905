/-
# What an expanded message says

A collector reads an expanded message and knows nothing of the compact one.  It finds one set for
each set of that, in order: a definition with the same specifiers, and data with the same octets
(`CompactSet.BecomesFull`).  Where a source was given, every definition ends in its specifier and
every record in its octets.

The two additions fit each other.  A data set is cut under a definition that has its record width,
each with its source, into the records that the compact set had, and a field is where it was: the
source is one more field behind the others (`CompactSet.ReadsTagged`).  So `decode_of_expand` says
of every message that is accepted, wherever it came from, that expanding it keeps its meaning.
-/
import FlowExport.Proofs.Wire.Expansion
import FlowExport.Proofs.Wire.Template
import Mathlib

namespace FlowExport

namespace CompactSet

/-! ## 1. Sets of a full message -/

/-- **What a set is in a full message**, with and without a source. -/
def BecomesFull (kind : Kind) (source : Option Address) (s : CompactSet) (set : FullSet) : Prop :=
  match kind, source with
  | .template, none => set = .templates [⟨s.template, s.specifiers⟩]
  | .template, some _ => set = .templates [⟨s.template, s.specifiers ++ [sourceSpecifier]⟩]
  | .data, none => set = .data s.template s.body
  | .data, some address =>
    set = .data s.template (s.records.flatMap fun record => record ++ address.octets)

theorem becomesFull_expandedSet {kind : Kind} {s : CompactSet} (h : s.check kind = .ok ())
    (source : Option Address) : s.BecomesFull kind source (s.expandedSet kind source) := by
  cases kind with
  | template =>
    cases source with
    | none =>
      change FullSet.templates [⟨s.template, s.specifiers ++ []⟩] = _
      rw [List.append_nil]
    | some address => exact rfl
  | data =>
    cases source with
    | none =>
      change FullSet.data s.template (s.records.flatMap (tagged none)) = _
      rw [flatMap_tagged_none, flatten_records (isEven_of_check h)]
    | some address => exact rfl

/-! ## 2. Records with a source -/

/-- The octets that the fields of a definition take in a record. -/
def fieldsWidth (definition : CompactSet) : Nat :=
  total (definition.specifiers.map (·.size.toNat))

/-- **How a tagged set is read under a tagged definition.**  There are as many rows as records, and
each row has the fields of a record, followed by the source. -/
def ReadsTagged (s : CompactSet) (address : Address) (definition : CompactSet)
    (t : TemplateRecord) (set : FullSet) : Prop :=
  ∃ body rows, set = .data s.template body ∧ t.records body = .ok rows ∧
    rows.length = s.count.toNat ∧ rows = s.records.map (· ++ address.octets) ∧
    rows.map t.fieldValues = s.records.map fun record =>
      TemplateRecord.slices definition.specifiers record ++ [(sourceSpecifier, address.octets)]

theorem slices_source (address : Address) :
    TemplateRecord.slices [sourceSpecifier] address.octets
      = [(sourceSpecifier, address.octets)] := by
  have h16 : sourceSpecifier.size.toNat = address.octets.length := by
    rw [address.length_octets]
    rfl
  rw [TemplateRecord.slices, h16, List.take_length, TemplateRecord.slices]

/-- **A tagged definition cuts what was tagged**, if the two had one width before. -/
theorem readsTagged {definition s : CompactSet} {source : Address} {t : TemplateRecord}
    {set : FullSet} {address : Address} (h : s.check .data = .ok ())
    (hs : s.BecomesFull .data (some address) set)
    (ht : definition.BecomesFull .template (some source) (.templates [t]))
    (hwidth : definition.fieldsWidth = s.recordWidth) :
    s.ReadsTagged address definition t set := by
  have he := isEven_of_check h
  obtain rfl : t = ⟨definition.template, definition.specifiers ++ [sourceSpecifier]⟩ := by
    simpa [BecomesFull] using ht
  have ht : TemplateRecord.recordWidth
      ⟨definition.template, definition.specifiers ++ [sourceSpecifier]⟩ = s.recordWidth + 16 := by
    rw [← hwidth, TemplateRecord.recordWidth, fieldsWidth, List.map_append, total_eq_sum,
      total_eq_sum, List.sum_append]
    rfl
  have hrow : ∀ r ∈ s.records.map (· ++ address.octets), r.length = s.recordWidth + 16 := by
    intro r hr
    obtain ⟨record, hrecord, rfl⟩ := List.mem_map.mp hr
    rw [List.length_append, length_of_mem_records he hrecord, address.length_octets]
  refine ⟨_, s.records.map (· ++ address.octets), hs, ?_, ?_, rfl, ?_⟩
  · rw [List.flatMap_def]
    refine TemplateRecord.records_flatten ?_ ?_
    · rw [ht]
      exact Nat.succ_pos _
    · rw [ht]
      exact hrow
  · rw [List.length_map, length_records he]
  · rw [List.map_map]
    refine List.map_congr_left fun record hrecord => ?_
    have hlen : record.length = total (definition.specifiers.map (·.size.toNat)) :=
      (length_of_mem_records he hrecord).trans hwidth.symm
    rw [Function.comp_apply, TemplateRecord.fieldValues, TemplateRecord.slices_append hlen,
      slices_source]

end CompactSet

/-! ## 3. Whole messages -/

namespace CompactMessage

/-- **Expanding keeps the meaning of a message.**  What is handed out is decoded, under the number
that the exporter had, into one set for each, and the tagged definitions cut the tagged data. -/
theorem decode_of_expand {datagram bytes : List UInt8} {m : CompactMessage}
    (hparse : parse datagram = .ok m) {buffer buffer' : Buffer} {x x' : Exporter} {time : UInt32}
    {source : Option Address} (h : m.expand buffer x time source = (.ok bytes, buffer', x')) :
    (∃ full, FullMessage.decode bytes = .ok full ∧
      full.header.sequence = x.sequence ∧ full.header.domain = x.domain ∧
      List.Forall₂ (CompactSet.BecomesFull m.kind source) m.sets full.sets ∧
      ∀ address definition source' t, m.kind = .data → source = some address →
        CompactSet.BecomesFull .template (some source') definition (.templates [t]) →
        List.Forall₂ (fun s set => definition.fieldsWidth = s.recordWidth →
          s.ReadsTagged address definition t set) m.sets full.sets) ∧
    x'.sequence.toNat = (x.sequence.toNat + 1) % 2 ^ 32 ∧ x'.domain = x.domain := by
  obtain ⟨-, -, -, -, hcheck⟩ := parse_eq_ok hparse
  have hok : (m.expand buffer x time source).1 = .ok bytes := by rw [h]
  obtain ⟨rfl, hcap, hmax⟩ := (expand_eq_ok_iff hparse buffer x time source).mp hok
  refine ⟨⟨_, decode_expand hparse x time source hmax, rfl, rfl, ?_, ?_⟩, ?_⟩
  · rw [List.forall₂_map_right_iff]
    exact List.forall₂_same.mpr fun s hs => CompactSet.becomesFull_expandedSet (hcheck s hs) source
  · intro address definition source' t hkind hsource ht
    rw [List.forall₂_map_right_iff]
    refine List.forall₂_same.mpr fun s hs hwidth => ?_
    have hs' := hcheck s hs
    have hset := CompactSet.becomesFull_expandedSet hs' source
    rw [hkind, hsource] at hset ⊢
    rw [hkind] at hs'
    exact CompactSet.readsTagged hs' hset ht hwidth
  · have hx : x' = x.advance := by
      have hexp := Draft.exporter_compose buffer x .full m.kind time
        (Draft.fillAll (m.sets.map (·.expand m.kind source)))
      rw [expandedLength] at hcap
      rw [if_pos (Nat.le_trans (Nat.le_add_left _ _) hcap)] at hexp
      rw [← hexp]
      exact (congrArg (·.2.2) h).symm
    rw [hx]
    exact ⟨UInt32.toNat_add _ _, rfl⟩

/-- Two records of two octets, as a message. -/
def twoRecords : CompactMessage :=
  ⟨⟨.data, 1, 13⟩, [0, 2, 0, 8, 1, 2, 3, 4]⟩

/-- A definition of one field of two octets. -/
def oneField : CompactSet :=
  ⟨256, 1, [0, 1, 0, 2]⟩

/-- Tagged with a source, two records are found again under the tagged definition. -/
theorem decode_of_expand_twoRecords :
    parse [0xA2, 0, 1, 0, 13, 0, 2, 0, 8, 1, 2, 3, 4] = .ok twoRecords ∧
      ∃ bytes buffer' x',
        twoRecords.expand (.ofCapacity 64) {} 0 (some .unspecified) = (.ok bytes, buffer', x') ∧
        oneField.BecomesFull .template (some .unspecified)
          (.templates [⟨256, [⟨1, 2, 0⟩, sourceSpecifier]⟩]) ∧
        ∃ full body rows, FullMessage.decode bytes = .ok full ∧ full.sets = [.data 256 body] ∧
          TemplateRecord.records ⟨256, [⟨1, 2, 0⟩, sourceSpecifier]⟩ body = .ok rows ∧
          rows.length = 2 := by
  have hparse : parse [0xA2, 0, 1, 0, 13, 0, 2, 0, 8, 1, 2, 3, 4] = .ok twoRecords := by cbv
  have hsets : twoRecords.sets = [⟨256, 2, [1, 2, 3, 4]⟩] := by cbv
  have hfields : oneField.specifiers = [⟨1, 2, 0⟩] := by cbv
  have hdef : oneField.BecomesFull .template (some .unspecified)
      (.templates [⟨256, [⟨1, 2, 0⟩, sourceSpecifier]⟩]) := by
    rw [CompactSet.BecomesFull, hfields]
    rfl
  have hfits : twoRecords.expandedLength true = 56 := by
    rw [expandedLength, hsets]
    rfl
  obtain ⟨buffer', hexpand, -⟩ := expand_ok hparse (.ofCapacity 64) {} 0 (some .unspecified)
    (by rw [Option.isSome_some, hfits]; decide) (by rw [Option.isSome_some, hfits]; decide)
  obtain ⟨⟨full, hfull, -, -, -, htagged⟩, -⟩ := decode_of_expand hparse hexpand
  have hcut := htagged .unspecified oneField .unspecified _ rfl rfl hdef
  rw [hsets] at hcut
  obtain ⟨set, rest, hset, hrest, heq⟩ := List.forall₂_cons_left_iff.mp hcut
  obtain ⟨body, rows, rfl, hrows, hcount, -⟩ := hset (by
    rw [CompactSet.fieldsWidth, hfields]
    rfl)
  refine ⟨hparse, _, _, _, hexpand, hdef, full, body, rows, hfull, ?_, hrows, hcount⟩
  rw [heq, List.forall₂_nil_left_iff.mp hrest]

end CompactMessage

end FlowExport
