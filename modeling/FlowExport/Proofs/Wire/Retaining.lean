/-
# What merging does to the retained definitions

A template message is checked as a whole before any of its definitions is retained, and the check
counts an id once where the message defines it twice.  What it announces is what comes out: where
it passes, every definition finds its place, and the length that it computed is the length of the
template message afterwards (`checkTemplatesExact_eq`, `retainAll_ok`).  The reason is that a
definition which a later one replaces leaves no trace but in the order (`collectAll_superseded`),
and neither the number of places nor the length depends on the order.

`TemplateInv` is what stays true of the places; with `DataInv` it makes `Aggregation.Inv`, which
every merged message keeps (`merge_ok`, `merge_error`) and under which both kinds of message can be
written (`compose_writeTemplates`, `compose_writeData`).
-/
import FlowExport.Proofs.Wire.Merging

namespace FlowExport

/-! ## 1. Places -/

namespace TemplateSlot

/-- The place that a definition is retained in. -/
def ofSet (s : CompactSet) : TemplateSlot :=
  ⟨s.template, s.count.toNat, s.body⟩

/-- What a reader will have of a place. -/
def definition (slot : TemplateSlot) : UInt16 × List FieldSpecifier :=
  (slot.template, FieldSpecifier.readAll slot.specifiers)

/-- **A place with as many specifiers as it counts**, all of them by the rules. -/
structure WellFormed (slot : TemplateSlot) : Prop where
  id_ge : minTemplateId ≤ slot.template
  id_le : slot.template ≤ maxCompactId
  fields_le : slot.fields ≤ maxCompactCount
  length : slot.definition.2.length = slot.fields
  valid : ∀ s ∈ slot.definition.2, s.Valid
  octets : slot.specifiers = slot.definition.2.flatMap (·.encode)

theorem wellFormed_ofSet {s : CompactSet} (h : s.check .template = .ok ())
    (hid : minTemplateId ≤ s.template ∧ s.template ≤ maxCompactId) : (ofSet s).WellFormed := by
  obtain ⟨hl, hv, hb⟩ := CompactSet.specifiers_of_check h
  refine ⟨hid.1, hid.2, ?_, hl, hv, hb⟩
  have := s.count.toNat_lt
  change s.count.toNat ≤ maxCompactCount
  rw [maxCompactCount]
  omega

end TemplateSlot

/-- What a set of a template message defines. -/
def CompactSet.definition (s : CompactSet) : UInt16 × List FieldSpecifier :=
  (s.template, s.specifiers)

namespace Aggregation

/-- **The retained definitions**: the specifiers of each template. -/
def definitions (a : Aggregation) : List (UInt16 × List FieldSpecifier) :=
  a.templates.map (·.definition)

/-- The length of a template message with these places. -/
def lengthWith (slots : List TemplateSlot) : Nat :=
  Encoding.compact.headerLength + (slots.map fun slot => setLength slot.specifiers).sum

/-- The places after a message: the last definition of each id. -/
abbrev placed (sets : List CompactSet) (slots : List TemplateSlot) : List TemplateSlot :=
  collectAll (·.template) keepLast (sets.map .ofSet) slots

/-- **What is true of the places for definitions.** -/
structure TemplateInv (a : Aggregation) : Prop where
  nodup : (a.templates.map (·.template)).Nodup
  slots : ∀ slot ∈ a.templates, slot.WellFormed
  places : a.templates.length ≤ a.maxTemplates
  length : a.templateMessageLength ≤ a.maxMessage

/-! ## 2. The check -/

theorem lengthWith_perm {slots slots' : List TemplateSlot} (h : slots.Perm slots') :
    lengthWith slots = lengthWith slots' := by
  rw [lengthWith, lengthWith, (h.map _).sum_nat]

/-- A place adds its octets wherever it stands. -/
theorem lengthWith_insert (before : List TemplateSlot) (slot : TemplateSlot)
    (after : List TemplateSlot) : lengthWith (before ++ slot :: after)
      = lengthWith (before ++ after) + setLength slot.specifiers := by
  simp only [lengthWith, List.map_append, List.map_cons, List.sum_append, List.sum_cons]
  omega

/-- **The check with its subtraction checked**: nothing where more octets would be given back than
the length has. -/
def checkTemplatesExact (retained : List TemplateSlot) :
    List CompactSet → (free length : Nat) → Option (Except CodecError Nat)
  | [], _, length => some (.ok length)
  | s :: later, free, length =>
    if later.any (·.template == s.template) then checkTemplatesExact retained later free length
    else
      match retained.find? (·.template == s.template) with
      | some slot =>
        if length < setLength slot.specifiers then none
        else
          checkTemplatesExact retained later free
            (length - setLength slot.specifiers + setLength s.body)
      | none =>
        match free with
        | 0 => some (.error (.templateSlotsExhausted s.template))
        | free + 1 => checkTemplatesExact retained later free (length + setLength s.body)

theorem checkTemplates_of_exact {retained : List TemplateSlot} {outcome : Except CodecError Nat} :
    ∀ {sets : List CompactSet} {free length : Nat},
      checkTemplatesExact retained sets free length = some outcome →
        checkTemplates retained sets free length = outcome
  | [], free, length, h => by
    simp only [checkTemplatesExact, Option.some.injEq] at h
    exact h
  | s :: later, free, length, h => by
    simp only [checkTemplatesExact] at h
    simp only [checkTemplates]
    split
    · rename_i hany
      rw [if_pos hany] at h
      exact checkTemplates_of_exact h
    · rename_i hany
      rw [if_neg hany] at h
      split
      · rename_i slot hslot
        simp only [hslot] at h
        split at h
        · simp at h
        · exact checkTemplates_of_exact h
      · rename_i hnone
        simp only [hnone] at h
        cases free with
        | zero => exact Option.some.inj h
        | succ free => exact checkTemplates_of_exact h

/-- **The check counts right.**  It never gives back octets that it does not have, it passes exactly
if there is a place for every definition, and the length that it then returns is the one with all
of them. -/
theorem checkTemplatesExact_eq {retained : List TemplateSlot} {n : Nat} :
    ∀ {sets : List CompactSet} {slots : List TemplateSlot} {free : Nat},
      (slots.map (·.template)).Nodup →
      (∀ s ∈ sets, slots.find? (·.template == s.template)
        = retained.find? (·.template == s.template)) →
      slots.length + free = n →
      ∃ outcome, checkTemplatesExact retained sets free (lengthWith slots) = some outcome ∧
        ((placed sets slots).length ≤ n → outcome = .ok (lengthWith (placed sets slots))) ∧
        (n < (placed sets slots).length → ∃ e, outcome = .error e)
  | [], slots, free, _, _, hn => by
    have hnone : (placed [] slots).length ≤ n := by
      rw [← hn]
      exact Nat.le_add_right _ _
    exact ⟨_, rfl, fun _ => rfl, fun h => absurd h (Nat.not_lt.mpr hnone)⟩
  | s :: later, slots, free, hnodup, hfind, hn => by
    have hlater : ∀ s' ∈ later, slots.find? (·.template == s'.template)
        = retained.find? (·.template == s'.template) := fun s' hs' => hfind s' (by simp [hs'])
    simp only [checkTemplatesExact]
    rw [placed, List.map_cons, collectAll_cons]
    split
    · -- a later definition replaces this one, so this one is not counted
      rename_i hany
      obtain ⟨s', hs', heq⟩ := List.any_eq_true.mp hany
      have hsame : (TemplateSlot.ofSet s').template = (TemplateSlot.ofSet s).template :=
        beq_iff_eq.mp heq
      have hperm := collectAll_superseded
        ⟨TemplateSlot.ofSet s', List.mem_map.mpr ⟨s', hs', rfl⟩, hsame⟩ hnodup
      rw [hperm.length_eq, lengthWith_perm hperm]
      exact checkTemplatesExact_eq hnodup hlater hn
    · rename_i hany
      have hnew := nodup_collect keepLast_key (.ofSet s) hnodup
      have hfind' : ∀ s' ∈ later,
          (collect (·.template) keepLast (TemplateSlot.ofSet s) slots).find?
              (·.template == s'.template)
            = retained.find? (·.template == s'.template) := by
        intro s' hs'
        have hne : (TemplateSlot.ofSet s).template ≠ s'.template := by
          intro heq
          have heq : s'.template = s.template := heq.symm
          exact hany (List.any_eq_true.mpr ⟨s', hs', by simpa using heq⟩)
        rw [find_collect_of_ne keepLast_key hne]
        exact hlater s' hs'
      rw [← hfind s (by simp)]
      split
      · rename_i old hold
        obtain ⟨before, after, rfl, ht, hbefore, -, -⟩ := split_of_find hnodup hold old
        have hput : collect (·.template) keepLast (TemplateSlot.ofSet s) (before ++ old :: after)
            = before ++ TemplateSlot.ofSet s :: after := collect_split keepLast ht after hbefore
        have hlen : lengthWith (before ++ TemplateSlot.ofSet s :: after)
            = lengthWith (before ++ after) + setLength s.body := lengthWith_insert _ _ _
        rw [hput] at hnew hfind' ⊢
        -- the octets that are given back are among those counted
        rw [lengthWith_insert before old after, if_neg (Nat.not_lt.mpr (Nat.le_add_left _ _)),
          Nat.add_sub_cancel, ← hlen]
        exact checkTemplatesExact_eq hnew hfind' (by simpa using hn)
      · rename_i hnone
        have hput := collect_of_not_mem keepLast (x := TemplateSlot.ofSet s)
          (not_mem_of_find_none hnone)
        have hlen : lengthWith (slots ++ [TemplateSlot.ofSet s])
            = lengthWith slots + setLength s.body := by
          rw [lengthWith_insert, List.append_nil]
          rfl
        have hone : (slots ++ [TemplateSlot.ofSet s]).length = slots.length + 1 :=
          List.length_append
        rw [hput] at hnew hfind' ⊢
        cases free with
        | zero =>
          have hfull : n < (placed later (slots ++ [TemplateSlot.ofSet s])).length := by
            have hle : (slots ++ [TemplateSlot.ofSet s]).length
                ≤ (placed later (slots ++ [TemplateSlot.ofSet s])).length :=
              length_le_collectAll _ _
            omega
          exact ⟨_, rfl, fun h => absurd h (Nat.not_le.mpr hfull), fun _ => ⟨_, rfl⟩⟩
        | succ free =>
          rw [← hlen]
          exact checkTemplatesExact_eq hnew hfind' (by omega)

/-! ## 3. Retaining -/

theorem retain_ok {s : CompactSet} {a : Aggregation}
    (hn : (a.templates.map (·.template)).Nodup)
    (hroom : (collect (·.template) keepLast (.ofSet s) a.templates).length ≤ a.maxTemplates) :
    a.retain s = (.ok (), { a with
      templates := collect (·.template) keepLast (.ofSet s) a.templates }) := by
  simp only [retain]
  split
  · rename_i hany
    obtain ⟨old, hold⟩ := Option.isSome_iff_exists.mp
      ((List.find?_isSome (p := fun slot : TemplateSlot => slot.template == s.template)).mpr
        (List.any_eq_true.mp hany))
    obtain ⟨before, after, ha, ht, hbefore, -, hmap⟩ := split_of_find hn hold (.ofSet s)
    have hput : collect (·.template) keepLast (.ofSet s) a.templates
        = before ++ TemplateSlot.ofSet s :: after := by
      rw [ha]
      exact collect_split keepLast ht after hbefore
    rw [hput, ← hmap]
    rfl
  · rename_i hany
    have hnot : ∀ slot ∈ a.templates, slot.template ≠ s.template := by
      intro slot hs heq
      exact hany (List.any_eq_true.mpr ⟨slot, hs, by simpa using heq⟩)
    have hput := collect_of_not_mem keepLast (x := TemplateSlot.ofSet s) hnot
    rw [hput, List.length_append, List.length_singleton] at hroom
    rw [if_neg (by omega), hput]
    rfl

/-- **Definitions that find a place are retained**, the last of each id. -/
theorem retainAll_ok {sets : List CompactSet} {a : Aggregation}
    (hn : (a.templates.map (·.template)).Nodup)
    (hroom : (placed sets a.templates).length ≤ a.maxTemplates) :
    a.retainAll sets = (.ok (), { a with templates := placed sets a.templates }) := by
  induction sets generalizing a with
  | nil => rfl
  | cons s sets ih =>
    rw [placed, List.map_cons, collectAll_cons] at hroom ⊢
    have hfirst := Nat.le_trans (length_le_collectAll (sets.map TemplateSlot.ofSet) _) hroom
    rw [retainAll, retain_ok hn hfirst]
    exact ih (nodup_collect keepLast_key (.ofSet s) hn) hroom

/-! ## 4. Whole messages -/

/-- **What is true of an aggregation**, whatever has been merged. -/
structure Inv (a : Aggregation) : Prop where
  data : a.DataInv
  templates : a.TemplateInv

theorem inv_empty {maxTemplates maxMessage : Nat}
    (h : Encoding.compact.headerLength ≤ maxMessage) : (empty maxTemplates maxMessage).Inv := by
  refine ⟨⟨List.nodup_nil, ?_, Nat.zero_le _, h⟩, ⟨List.nodup_nil, ?_, Nat.zero_le _, h⟩⟩
  · intro slot hs
    exact absurd hs List.not_mem_nil
  · intro slot hs
    exact absurd hs List.not_mem_nil

theorem Inv.reset {a : Aggregation} (h : a.Inv) : a.reset.Inv :=
  inv_empty (Nat.le_trans (Nat.le_add_right _ _) h.data.length)

end Aggregation

namespace CompactMessage

/-- **The records that a message brings**, under their templates. -/
def items (m : CompactMessage) : List (UInt16 × List (List UInt8)) :=
  match m.kind with
  | .data => CompactSet.items m.sets
  | .template => []

/-- **The definitions that a message brings.** -/
def definitions (m : CompactMessage) : List (UInt16 × List FieldSpecifier) :=
  match m.kind with
  | .data => []
  | .template => m.sets.map (·.definition)

/-- Where every set of a data message has records, the message brings them all. -/
theorem items_of_records {bytes : List UInt8} {m : CompactMessage} (hp : parse bytes = .ok m)
    (hk : m.kind = .data) {sets : List (UInt16 × List (List UInt8))}
    (hsets : (m.sets.map fun s => (s.template, s.records)) = sets)
    (hne : ∀ p ∈ sets, p.2 ≠ []) : m.items = sets := by
  obtain ⟨-, -, -, -, hc⟩ := parse_eq_ok hp
  rw [hk] at hc
  have hall : m.sets.filter (·.count ≠ 0) = m.sets := by
    rw [List.filter_eq_self]
    intro s hs
    have hne := hne _ (hsets ▸ List.mem_map.mpr ⟨s, hs, rfl⟩)
    have hl := CompactSet.length_records (CompactSet.isEven_of_check (hc s hs))
    rw [decide_eq_true_iff]
    intro h0
    rw [h0] at hl
    exact hne (List.length_eq_zero_iff.mp hl)
  rw [items, hk, ← hsets]
  simp only [CompactSet.items, hall]
  rfl

end CompactMessage

namespace Aggregation

/-- Placed definitions are read as the last of each id. -/
theorem definitions_placed (sets : List CompactSet) (slots : List TemplateSlot) :
    (placed sets slots).map (·.definition)
      = collectAll (·.1) keepLast (sets.map (·.definition)) (slots.map (·.definition)) := by
  have hkey : ∀ slot : TemplateSlot, slot.definition.1 = slot.template := fun _ => rfl
  have hlast : ∀ old new : TemplateSlot,
      (keepLast old new).definition = keepLast old.definition new.definition := fun _ _ => rfl
  have hread := map_collectAll TemplateSlot.definition hkey hlast (sets.map .ofSet) slots
  rw [List.map_map] at hread
  exact hread

/-- **What the check of a message comes to**: it never goes below zero, and it passes exactly if
there is a place for every definition. -/
theorem checkTemplates_spec {a : Aggregation} (h : a.TemplateInv) (sets : List CompactSet) :
    let check := checkTemplates a.templates sets (a.maxTemplates - a.templates.length)
      a.templateMessageLength
    checkTemplatesExact a.templates sets (a.maxTemplates - a.templates.length)
        a.templateMessageLength = some check ∧
      ((placed sets a.templates).length ≤ a.maxTemplates →
        check = .ok (lengthWith (placed sets a.templates))) ∧
      (a.maxTemplates < (placed sets a.templates).length → ∃ e, check = .error e) := by
  intro check
  obtain ⟨outcome, hexact, hfits, hfull⟩ := checkTemplatesExact_eq h.nodup
    (fun s (_ : s ∈ sets) => rfl) (Nat.add_sub_cancel' h.places)
  have hcheck : check = outcome := checkTemplates_of_exact hexact
  rw [hcheck]
  exact ⟨hexact, hfits, hfull⟩

/-- What has passed the check has room. -/
theorem room_of_check {a : Aggregation} (h : a.TemplateInv) {sets : List CompactSet}
    {length : Nat} (hpass : checkTemplates a.templates sets
      (a.maxTemplates - a.templates.length) a.templateMessageLength = .ok length) :
    (placed sets a.templates).length ≤ a.maxTemplates := by
  obtain ⟨-, -, hfull⟩ := checkTemplates_spec h sets
  refine Nat.not_lt.mp fun hmany => ?_
  obtain ⟨e, he⟩ := hfull hmany
  rw [hpass] at he
  simp at he

/-- **What has passed the check is retained.** -/
theorem retainAll_of_check {a : Aggregation} (h : a.TemplateInv) {sets : List CompactSet}
    {length : Nat} (hpass : checkTemplates a.templates sets
      (a.maxTemplates - a.templates.length) a.templateMessageLength = .ok length) :
    a.retainAll sets = (.ok (), { a with templates := placed sets a.templates }) :=
  retainAll_ok h.nodup (room_of_check h hpass)

/-- **When a template message is merged**: if all its definitions have a place and fit into a
message; otherwise nothing is done. -/
theorem merge_template_cases {m : CompactMessage} {a : Aggregation} (h : a.TemplateInv)
    (hk : m.kind = .template) :
    (placed m.sets a.templates).length ≤ a.maxTemplates ∧
        lengthWith (placed m.sets a.templates) ≤ a.maxMessage ∧
        a.merge m = (.ok 0, { a with templates := placed m.sets a.templates }) ∨
      ¬ ((placed m.sets a.templates).length ≤ a.maxTemplates ∧
          lengthWith (placed m.sets a.templates) ≤ a.maxMessage) ∧
        ∃ e, a.merge m = (.error e, a) := by
  obtain ⟨-, hfits, hfull⟩ := checkTemplates_spec h m.sets
  rcases Nat.lt_or_ge a.maxTemplates (placed m.sets a.templates).length with hmany | hplaces
  · obtain ⟨e, hcheck⟩ := hfull hmany
    refine Or.inr ⟨fun hfit => absurd hfit.1 (Nat.not_le.mpr hmany), e, ?_⟩
    simp only [merge, hk, hcheck]
  · have hcheck := hfits hplaces
    rcases Nat.lt_or_ge a.maxMessage (lengthWith (placed m.sets a.templates)) with hlong | hlength
    · have herr : a.merge m = (.error (.bufferOverflow (lengthWith (placed m.sets a.templates))
          a.maxMessage), a) := by
        simp only [merge, hk, hcheck]
        rw [if_pos hlong]
      exact Or.inr ⟨fun hfit => absurd hfit.2 (Nat.not_le.mpr hlong), _, herr⟩
    · refine Or.inl ⟨hplaces, hlength, ?_⟩
      simp only [merge, hk, hcheck, retainAll_of_check h hcheck]
      rw [if_neg (Nat.not_lt.mpr hlength)]

section Message

variable {bytes : List UInt8} {m : CompactMessage} (hp : CompactMessage.parse bytes = .ok m)
  {a a' : Aggregation} (h : a.Inv)

include hp h

/-- **What merging a template message can do**: retain all its definitions, or nothing. -/
theorem merge_template (hk : m.kind = .template) :
    (∃ e, a.merge m = (.error e, a)) ∨
      TemplateInv { a with templates := placed m.sets a.templates } ∧
      a.merge m = (.ok 0, { a with templates := placed m.sets a.templates }) := by
  obtain ⟨-, -, -, -, hc⟩ := CompactMessage.parse_eq_ok hp
  rw [hk] at hc
  obtain ⟨hn, hslots, -, -⟩ := h.templates
  rcases merge_template_cases h.templates hk with ⟨hplaces, hlength, he⟩ | ⟨-, herr⟩
  · refine Or.inr ⟨⟨nodup_collectAll keepLast_key _ hn, ?_, hplaces, hlength⟩, he⟩
    refine collectAll_induction (fun _ _ _ hx => hx) ?_ hslots
    intro slot hs
    obtain ⟨s, hsm, rfl⟩ := List.mem_map.mp hs
    exact TemplateSlot.wellFormed_ofSet (hc s hsm) (CompactMessage.template_of_mem_sets hp hsm)
  · exact Or.inl herr

/-- **A message that is merged** brings its records and its definitions. -/
theorem merge_ok {n : Nat} (hok : a.merge m = (.ok n, a')) :
    a'.Inv ∧ a'.maxTemplates = a.maxTemplates ∧ a'.maxMessage = a.maxMessage ∧
      a'.pending = collectAll (·.1) joinValues m.items a.pending ∧
      a'.definitions = collectAll (·.1) keepLast m.definitions a.definitions := by
  cases hk : m.kind with
  | data =>
    obtain ⟨-, hd, hb, hpend⟩ := merge_data_ok hp hk h.data hok
    have ht := h.templates
    refine ⟨⟨hd, ?_⟩, hb.maxTemplates, hb.maxMessage, ?_, ?_⟩
    · obtain ⟨h₁, h₂, h₃, h₄⟩ := ht
      constructor
      · rw [hb.templates]; exact h₁
      · rw [hb.templates]; exact h₂
      · rw [hb.templates, hb.maxTemplates]; exact h₃
      · rw [templateMessageLength, hb.templates, hb.maxMessage]; exact h₄
    · rw [hpend, CompactMessage.items, hk]
    · rw [definitions, hb.templates, CompactMessage.definitions, hk]
      rfl
  | template =>
    rcases merge_template hp h hk with ⟨e, he⟩ | ⟨hinv, he⟩
    · rw [he] at hok
      simp at hok
    · rw [he] at hok
      simp only [Prod.mk.injEq] at hok
      obtain ⟨-, rfl⟩ := hok
      obtain ⟨h₁, h₂, h₃, h₄⟩ := h.data
      refine ⟨⟨⟨h₁, h₂, h₃, h₄⟩, hinv⟩, rfl, rfl, ?_, ?_⟩
      · rw [CompactMessage.items, hk]
        rfl
      · rw [CompactMessage.definitions, hk]
        exact definitions_placed m.sets a.templates

/-- **A message that is refused** brings nothing. -/
theorem merge_error {e : CodecError} (herr : a.merge m = (.error e, a')) :
    a'.Inv ∧ a'.maxTemplates = a.maxTemplates ∧ a'.maxMessage = a.maxMessage ∧
      a'.pending = a.pending ∧ a'.definitions = a.definitions := by
  cases hk : m.kind with
  | data =>
    rw [merge_data_error hp hk h.data herr]
    obtain ⟨h₁, h₂, h₃, h₄⟩ := h.templates
    exact ⟨⟨h.data.checkpoint, ⟨h₁, h₂, h₃, h₄⟩⟩, rfl, rfl, pending_checkpoint a, rfl⟩
  | template =>
    rcases merge_template hp h hk with ⟨e', he⟩ | ⟨-, he⟩
    · rw [he] at herr
      simp only [Prod.mk.injEq] at herr
      obtain ⟨-, rfl⟩ := herr
      exact ⟨h, rfl, rfl, rfl, rfl⟩
    · rw [he] at herr
      simp at herr

end Message

/-! ## 5. Writing -/

section Writing

variable {a : Aggregation} (buffer : Buffer) (x : Exporter) (time : UInt32)
  (hmax : buffer.capacity ≤ maxLength) (hcap : a.maxMessage ≤ buffer.capacity)

include hmax hcap

/-- **The pending data can always be written**, and is read as it is. -/
theorem compose_writeData (h : a.DataInv) :
    ∃ payload buffer', Draft.compose buffer x .compact .data time a.writeData
        = (.ok payload, buffer', x.advance) ∧
      buffer'.capacity = buffer.capacity ∧ payload.length ≤ buffer.capacity ∧
      Encoding.ReadsRecords .compact payload x.sequence a.pending := by
  have hw : ∀ slot ∈ a.data, Draft.WritesRecords .compact
      (Draft.addRaw slot.template slot.count slot.bytes) slot.template slot.records := by
    intro slot hs
    have hslot := h.slots slot hs
    have hc : Encoding.Carries .compact slot.template slot.count :=
      fun _ => ⟨hslot.count_le, hslot.id_ge, hslot.id_le⟩
    refine ⟨?_, hslot.id_ge, ?_, slot.width, hslot.width_pos,
      fun r hr => Octets.length_of_mem_pieces hr⟩
    · rw [hslot.flatten_records, hslot.length_records]
      exact Draft.writes_addRaw .data slot.bytes hc
    · rwa [hslot.length_records]
  refine Draft.compose_records hw buffer x time hmax ?_
  have hlen : (a.data.map fun slot => Encoding.compact.setHeaderLength
      + slot.records.flatten.length) = a.data.map fun slot => setLength slot.bytes := by
    refine List.map_congr_left fun slot hs => ?_
    rw [(h.slots slot hs).flatten_records]
    rfl
  rw [hlen]
  exact Nat.le_trans h.length hcap

/-- **The retained definitions can always be written**, and are read as they are. -/
theorem compose_writeTemplates (h : a.TemplateInv) :
    ∃ payload buffer', Draft.compose buffer x .compact .template time a.writeTemplates
        = (.ok payload, buffer', x.advance) ∧
      buffer'.capacity = buffer.capacity ∧ payload.length ≤ buffer.capacity ∧
      Encoding.ReadsDefinitions .compact payload x.sequence a.definitions := by
  have hw : ∀ slot ∈ a.templates, Draft.WritesDefinition .compact
      (Draft.addRaw slot.template slot.fields slot.specifiers) slot.template
      slot.definition.2 := by
    intro slot hs
    have hslot := h.slots slot hs
    have hc : Encoding.Carries .compact slot.template slot.fields :=
      fun _ => ⟨hslot.fields_le, hslot.id_ge, hslot.id_le⟩
    refine ⟨?_, hslot.id_ge, by rwa [hslot.length], hslot.valid, ?_⟩
    · rw [← hslot.octets, hslot.length]
      exact Draft.writes_addRaw .template slot.specifiers hc
    · rw [hslot.length]
      exact hslot.fields_le
  refine Draft.compose_definitions hw buffer x time hmax ?_
  have hlen : (a.templates.map fun slot => Encoding.compact.templateSetHeaderLength
      + (slot.definition.2.flatMap (·.encode)).length)
        = a.templates.map fun slot => setLength slot.specifiers := by
    refine List.map_congr_left fun slot hs => ?_
    rw [← (h.slots slot hs).octets]
    rfl
  rw [hlen]
  exact Nat.le_trans h.length hcap

end Writing

end Aggregation

end FlowExport
