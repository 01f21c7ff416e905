/-
# Merging into places set aside

An aggregation is a list of pending sets and a list of retained definitions.  A node keeps both in
places that are set aside once, so many of each, with a mark that says how many are in use; what
stands behind the mark is left over from earlier cycles.  `Storage` is this, and merging into it is
written with every operation checked: the places in use are a range of all the places, the place of
a template is indexed, the next free one is indexed too, rolling back changes two ranges that meet
at the checkpoint, and the check of a template message subtracts the octets of the definitions that
it replaces.

What a storage has to satisfy for none of this to fail is `Bounded`, which is about the marks alone,
and of what it holds the invariant of the aggregation.  Both are kept by every message, so merging
never stops and does to the storage what merging does to the aggregation that it holds
(`merge_agrees`).
-/
import FlowExport.Proofs.Checked.Reading
import FlowExport.Proofs.Wire.Retaining

namespace FlowExport.Checked

/-! ## 1. Places -/

/-- **Places set aside**, of which the first `active` are in use. -/
structure Places (α : Type) where
  all : List α
  active : Nat

namespace Places

variable {α : Type}

/-- What stands in the places in use. -/
def held (p : Places α) : List α :=
  p.all.take p.active

/-- The range of the places in use. -/
def inUse (p : Places α) : Option (List α) :=
  slice p.all 0 p.active

/-- The index of the first place in use that passes a test. -/
def position (p : Places α) (test : α → Bool) : Option (Option Nat) := do
  return (← p.inUse).findIdx? test

/-- Writes to the place at an index. -/
def put (p : Places α) (index : Nat) (x : α) : Places α :=
  { p with all := p.all.set index x }

/-- **Takes the next place into use**, filled from what it holds. -/
def occupy (p : Places α) (fill : α → α) : Option (Places α) := do
  let old ← p.all[p.active]?
  return ⟨p.all.set p.active (fill old), p.active + 1⟩

/-- Changes every place from `start` up to `stop`. -/
def change (p : Places α) (start stop : Nat) (f : α → α) : Option (Places α) := do
  let part ← slice p.all start stop
  return { p with all := p.all.take start ++ part.map f ++ p.all.drop stop }

section Bounded

variable {p : Places α} (h : p.active ≤ p.all.length)

include h

theorem length_held : p.held.length = p.active := by
  rw [held, List.length_take, Nat.min_eq_left h]

theorem isEmpty_held : p.held.isEmpty ↔ p.active = 0 := by
  rw [List.isEmpty_iff_length_eq_zero, length_held h]

theorem inUse_eq : p.inUse = some p.held :=
  slice_front h

theorem position_eq (test : α → Bool) : p.position test = some (p.held.findIdx? test) := by
  rw [position, inUse_eq h]
  rfl

end Bounded

section Key

variable {κ : Type} [DecidableEq κ] {f : α → κ} {k : κ}

/-- **The place of a key**: what stands at an index, and what writing to it does to the places in
use. -/
structure PlaceOf (p : Places α) (f : α → κ) (k : κ) (index : Nat) (x : α) : Prop where
  getElem : p.all[index]? = some x
  put : ∀ y, (p.put index y).held = p.held.map fun z => if f z = k then y else z

/-- An entry among others of other keys has the place of its key. -/
theorem placeOf_split {p : Places α} {before after : List α} {x : α}
    (h : p.held = before ++ x :: after) (hx : f x = k) (hbefore : ∀ z ∈ before, f z ≠ k)
    (hafter : ∀ z ∈ after, f z ≠ k) : PlaceOf p f k before.length x := by
  have hkeep : ∀ {zs : List α} {y : α}, (∀ z ∈ zs, f z ≠ k) →
      (zs.map fun z => if f z = k then y else z) = zs := by
    intro zs y hzs
    exact (List.map_congr_left fun z hz => if_neg (hzs z hz)).trans (List.map_id zs)
  constructor
  · have hlt : before.length < p.active := by
      have hle := List.length_take_le p.active p.all
      have hlen := congrArg List.length h
      rw [List.length_append, List.length_cons, held] at hlen
      omega
    have hget : p.held[before.length]? = some x := by
      rw [h, List.getElem?_append_right (Nat.le_refl _), Nat.sub_self]
      rfl
    rwa [held, List.getElem?_take_of_lt hlt] at hget
  · intro y
    have hset : (p.put before.length y).held = p.held.set before.length y := List.take_set
    rw [hset, h, List.set_append_right _ _ (Nat.le_refl _), Nat.sub_self, List.map_append,
      List.map_cons, if_pos hx, hkeep hbefore, hkeep hafter]
    rfl

variable {p : Places α} (h : p.active ≤ p.all.length)

include h

/-- **A key that has a place** is found there. -/
theorem position_of_find (hn : (p.held.map f).Nodup) {x : α}
    (hx : p.held.find? (f · == k) = some x) :
    ∃ index, p.position (f · == k) = some (some index) ∧ PlaceOf p f k index x := by
  obtain ⟨before, after, hheld, hk, hbefore, hafter, -⟩ := split_of_find hn hx x
  refine ⟨before.length, ?_, placeOf_split hheld hk hbefore hafter⟩
  have hfront : before.findIdx? (f · == k) = none :=
    List.findIdx?_eq_none_iff.mpr fun z hz => beq_eq_false_iff_ne.mpr (hbefore z hz)
  rw [position_eq h, hheld, List.findIdx?_append, hfront, Option.none_or, List.findIdx?_cons,
    if_pos (beq_iff_eq.mpr hk), Option.map_some, Nat.zero_add]

/-- A key without a place is not found. -/
theorem position_of_find_none (hx : p.held.find? (f · == k) = none) :
    p.position (f · == k) = some none := by
  rw [position_eq h, List.findIdx?_eq_none_iff.mpr fun z hz =>
    beq_eq_false_iff_ne.mpr (not_mem_of_find_none hx z hz)]

end Key

/-- **The next place is taken into use**, if there is one. -/
theorem occupy_eq {p : Places α} (h : p.active < p.all.length) (fill : α → α) {x : α}
    (hfill : ∀ old, fill old = x) : ∃ q : Places α, p.occupy fill = some q ∧
      q.held = p.held ++ [x] ∧ q.active = p.active + 1 ∧ q.all.length = p.all.length := by
  refine ⟨⟨p.all.set p.active x, p.active + 1⟩, ?_, ?_, rfl, List.length_set⟩
  · rw [occupy, List.getElem?_eq_getElem h, Option.bind_eq_bind, Option.bind_some, hfill]
    rfl
  · have hlt : p.active < (p.all.set p.active x).length := by
      rw [List.length_set]
      exact h
    rw [held, List.take_succ_eq_append_getElem hlt, List.getElem_set_self,
      List.take_set_of_le (Nat.le_refl _)]
    rfl

/-- **Changing a range of places** leaves those in front of it as they are. -/
theorem change_eq {p : Places α} {start stop : Nat} (h₁ : start ≤ stop)
    (h₂ : stop ≤ p.all.length) (f : α → α) : ∃ q : Places α, p.change start stop f = some q ∧
      q.all.take stop = p.all.take start ++ ((p.all.take stop).drop start).map f ∧
      q.all.take start = p.all.take start ∧ q.active = p.active ∧
      q.all.length = p.all.length := by
  have hstart : (p.all.take start).length = start := by
    rw [List.length_take]
    omega
  have hrange : (p.all.take start ++ ((p.all.take stop).drop start).map f).length = stop := by
    simp only [List.length_append, List.length_map, List.length_drop, List.length_take]
    omega
  refine ⟨⟨p.all.take start ++ ((p.all.take stop).drop start).map f ++ p.all.drop stop, p.active⟩,
    ?_, ?_, ?_, rfl, ?_⟩
  · rw [change, slice_eq h₁ h₂]
    rfl
  · exact List.take_left' hrange
  · rw [List.append_assoc]
    exact List.take_left' hstart
  · rw [List.length_append, hrange, List.length_drop]
    omega

end Places

/-! ## 2. A storage and what it holds -/

/-- **The places for data and for definitions**, with the mark of the last checkpoint. -/
structure Storage where
  data : Places DataSlot
  markActive : Nat
  templates : Places TemplateSlot
  maxMessage : Nat

/-- A place given up. -/
def clearData (slot : DataSlot) : DataSlot :=
  { slot with width := 0, count := 0, mark := 0, bytes := [] }

namespace Storage

/-- So many places of each kind, none of them in use. -/
def empty (places maxMessage : Nat) : Storage :=
  ⟨⟨List.replicate places ⟨0, 0, 0, 0, []⟩, 0⟩, 0, ⟨List.replicate places ⟨0, 0, []⟩, 0⟩, maxMessage⟩

/-- **The aggregation that a storage holds.** -/
def held (s : Storage) : Aggregation :=
  ⟨s.data.all.length, s.maxMessage, s.data.held, s.markActive, s.templates.held⟩

/-- **The marks of a storage lie within its places.** -/
structure Bounded (s : Storage) : Prop where
  data : s.data.active ≤ s.data.all.length
  marked : s.markActive ≤ s.data.active
  templates : s.templates.active ≤ s.templates.all.length
  places : s.templates.all.length = s.data.all.length

/-- **An operation that does not stop** and does to the storage what is expected of what it
holds. -/
def Agrees {α : Type} (result : Option (Except CodecError α × Storage))
    (expected : Except CodecError α × Aggregation) : Prop :=
  ∃ s' : Storage, result = some (expected.1, s') ∧ s'.Bounded ∧ s'.held = expected.2

/-- Other places for data, as many as before and with the marks within them. -/
theorem Bounded.withData {s : Storage} (h : s.Bounded) {q : Places DataSlot} {mark : Nat}
    (hactive : q.active ≤ s.data.all.length) (hmark : mark ≤ q.active)
    (hlength : q.all.length = s.data.all.length) :
    Bounded { s with data := q, markActive := mark } := by
  refine ⟨?_, hmark, h.templates, ?_⟩
  · rw [hlength]
    exact hactive
  · rw [hlength]
    exact h.places

/-- Other places for definitions, as many as before and with the mark within them. -/
theorem Bounded.withTemplates {s : Storage} (h : s.Bounded) {q : Places TemplateSlot}
    (hactive : q.active ≤ s.templates.all.length)
    (hlength : q.all.length = s.templates.all.length) : Bounded { s with templates := q } := by
  refine ⟨h.data, h.marked, ?_, ?_⟩
  · rw [hlength]
    exact hactive
  · rw [hlength]
    exact h.places

theorem bounded_empty (places maxMessage : Nat) : (empty places maxMessage).Bounded := by
  refine ⟨Nat.zero_le _, Nat.le_refl _, Nat.zero_le _, ?_⟩
  rw [empty, List.length_replicate, List.length_replicate]

theorem held_empty (places maxMessage : Nat) :
    (empty places maxMessage).held = .empty places maxMessage := by
  simp only [held, empty, Places.held, List.length_replicate, List.take_zero, Aggregation.empty]

/-! ## 3. Data -/

/-- Marks the present count of every place in use. -/
def checkpoint (s : Storage) : Option Storage := do
  let data ← s.data.change 0 s.data.active fun slot => { slot with mark := slot.count }
  return { s with data, markActive := s.data.active }

/-- **Takes back** what was merged since the checkpoint. -/
def rollback (s : Storage) : Option Storage := do
  let data ← s.data.change 0 s.markActive DataSlot.cut
  let data ← data.change s.markActive data.active clearData
  return { s with data := { data with active := s.markActive } }

/-- The length of the data message that would be written now. -/
def dataMessageLength (s : Storage) : Option Nat := do
  return Encoding.compact.headerLength
    + total ((← s.data.inUse).map fun slot => Aggregation.setLength slot.bytes)

/-- Appends the records of a set to the place at an index. -/
def appendRecords (set : CompactSet) (width index needed : Nat) (s : Storage) :
    Option (Except CodecError Unit × Storage) := do
  let slot ← s.data.all[index]?
  let count := slot.count + set.count.toNat
  if slot.width ≠ width then
    return (.error (.recordWidthMismatch set.template slot.width width), s)
  else if maxCompactCount < count then
    return (.error (.tooManyRecords set.template count maxCompactCount), s)
  else if s.maxMessage < needed then return (.error (.bufferOverflow needed s.maxMessage), s)
  else
    return (.ok (), { s with
      data := s.data.put index { slot with count, bytes := slot.bytes ++ set.body } })

/-- **Merges one data set.** -/
def mergeSet (set : CompactSet) (s : Storage) : Option (Except CodecError Unit × Storage) :=
  if set.count = 0 then some (.ok (), s)
  else do
    let width ← recordWidth set
    let length ← s.dataMessageLength
    match ← s.data.position (·.template == set.template) with
    | some index => s.appendRecords set width index (length + set.body.length)
    | none =>
      if s.data.active = s.data.all.length then
        return (.error (.templateSlotsExhausted set.template), s)
      else
        let index := s.data.active
        let data ← s.data.occupy fun slot =>
          { clearData slot with template := set.template, width }
        Storage.appendRecords set width index (length + Aggregation.setLength set.body)
          { s with data }

/-- Merges sets in order, up to the first that is refused. -/
def mergeSets : List CompactSet → Storage → Option (Except CodecError Unit × Storage)
  | [], s => some (.ok (), s)
  | set :: sets, s => do
    match ← s.mergeSet set with
    | (.error e, s) => return (.error e, s)
    | (.ok (), s) => mergeSets sets s

section Data

variable {s : Storage} (h : s.Bounded)

include h

theorem checkpoint_eq : ∃ s', s.checkpoint = some s' ∧ s'.Bounded ∧
    s'.held = s.held.checkpoint := by
  obtain ⟨q, hq, hrange, -, hactive, hlength⟩ := Places.change_eq (Nat.zero_le _) h.data
    fun slot : DataSlot => { slot with mark := slot.count }
  have hheld : q.held = s.data.held.map fun slot => { slot with mark := slot.count } := by
    rw [Places.held, hactive, hrange]
    rfl
  have hmark : s.data.held.length = s.data.active := Places.length_held h.data
  refine ⟨{ s with data := q, markActive := s.data.active }, ?_, ?_, ?_⟩
  · rw [checkpoint, hq]
    rfl
  · exact h.withData (Nat.le_trans (Nat.le_of_eq hactive) h.data) (Nat.le_of_eq hactive.symm) hlength
  · simp only [held, Aggregation.checkpoint, hheld, hlength, hmark]

theorem rollback_eq : ∃ s', s.rollback = some s' ∧ s'.Bounded ∧ s'.held = s.held.rollback := by
  obtain ⟨q, hq, hcut, -, hactive, hlength⟩ := Places.change_eq (Nat.zero_le _)
    (Nat.le_trans h.marked h.data) DataSlot.cut
  -- the second range starts where the first one ends
  obtain ⟨r, hr, -, hfront, -, hlength'⟩ := Places.change_eq (p := q) h.marked
    (by rw [hlength]; exact h.data) clearData
  have hall : r.all.length = s.data.all.length := hlength'.trans hlength
  have hheld : (Places.held { r with active := s.markActive })
      = (s.data.held.take s.markActive).map DataSlot.cut := by
    rw [Places.held, hfront, hcut, Places.held, List.take_take, Nat.min_eq_left h.marked]
    rfl
  refine ⟨{ s with data := { r with active := s.markActive } }, ?_, ?_, ?_⟩
  · rw [rollback, hq, Option.bind_eq_bind, Option.bind_some, hactive, hr]
    rfl
  · exact h.withData (Nat.le_trans h.marked h.data) (Nat.le_refl _) hall
  · simp only [held, Aggregation.rollback, hall, hheld]

theorem dataMessageLength_eq : s.dataMessageLength = some s.held.dataMessageLength := by
  rw [dataMessageLength, Places.inUse_eq h.data]
  rfl

/-- **Records go to the place that was found**, if the checks allow it. -/
theorem appendRecords_agrees {set : CompactSet} {index : Nat} {slot : DataSlot}
    (hplace : Places.PlaceOf s.data (·.template) set.template index slot) (needed : Nat) :
    Agrees (s.appendRecords set set.recordWidth index needed)
      (s.held.appendRecords set slot needed) := by
  have hmax : s.held.maxMessage = s.maxMessage := rfl
  simp only [Storage.appendRecords, Aggregation.appendRecords, hplace.getElem, hmax,
    Option.bind_eq_bind, Option.bind_some, Option.pure_def]
  split
  · exact ⟨s, rfl, h, rfl⟩
  · split
    · exact ⟨s, rfl, h, rfl⟩
    · split
      · exact ⟨s, rfl, h, rfl⟩
      · have hlength : (s.data.put index (slot.grow set)).all.length = s.data.all.length :=
          List.length_set
        refine ⟨{ s with data := s.data.put index (slot.grow set) }, rfl, ?_, ?_⟩
        · exact h.withData h.data h.marked hlength
        · simp only [held, hplace.put, hlength]
          rfl

/-- **Merging a set** into places with distinct templates. -/
theorem mergeSet_agrees (hn : (s.held.data.map (·.template)).Nodup) (set : CompactSet) :
    Agrees (s.mergeSet set) (s.held.mergeSet set) := by
  unfold Storage.mergeSet Aggregation.mergeSet
  split
  · exact ⟨s, rfl, h, rfl⟩
  · rw [recordWidth_eq, dataMessageLength_eq h]
    simp only [Option.bind_eq_bind, Option.bind_some, Option.pure_def]
    cases hfind : s.held.data.find? (·.template == set.template) with
    | some slot =>
      obtain ⟨index, hindex, hplace⟩ := Places.position_of_find h.data hn hfind
      rw [hindex]
      exact appendRecords_agrees h hplace _
    | none =>
      have hused : s.held.data.length = s.data.active := Places.length_held h.data
      have hplaces : s.held.maxTemplates = s.data.all.length := rfl
      rw [Places.position_of_find_none h.data hfind, hused, hplaces]
      simp only [Option.bind_some]
      by_cases hfull : s.data.active = s.data.all.length
      · rw [if_pos hfull, if_pos (Nat.le_of_eq hfull.symm)]
        exact ⟨s, rfl, h, rfl⟩
      · have hfree : s.data.active < s.data.all.length := Nat.lt_of_le_of_ne h.data hfull
        obtain ⟨q, hq, hheld, hactive, hlength⟩ := Places.occupy_eq hfree
          (fun slot => { clearData slot with
            template := set.template, width := set.recordWidth })
          (x := .opened set) fun _ => rfl
        have hbounded : Bounded { s with data := q } := by
          refine h.withData ?_ ?_ hlength
          · rw [hactive]
            exact hfree
          · rw [hactive]
            exact Nat.le_succ_of_le h.marked
        have hnew : Storage.held { s with data := q }
            = { s.held with data := s.held.data ++ [.opened set] } := by
          simp only [held, hheld, hlength]
        have hplace := Places.placeOf_split (f := DataSlot.template) (k := set.template)
          hheld rfl (not_mem_of_find_none hfind) fun _ hm => absurd hm List.not_mem_nil
        have hopen := appendRecords_agrees hbounded hplace
          (s.held.dataMessageLength + Aggregation.setLength set.body)
        rw [hnew, Places.length_held h.data] at hopen
        rw [if_neg hfull, if_neg (Nat.not_le.mpr hfree), hq]
        exact hopen

/-- **Merging sets** up to the first that is refused. -/
theorem mergeSets_agrees (sets : List CompactSet) (hd : s.held.DataInv)
    (he : ∀ set ∈ sets, set.isEven = true)
    (hid : ∀ set ∈ sets, minTemplateId ≤ set.template ∧ set.template ≤ maxCompactId) :
    Agrees (s.mergeSets sets) (s.held.mergeSets sets) := by
  induction sets generalizing s with
  | nil => exact ⟨s, rfl, h, rfl⟩
  | cons set sets ih =>
    obtain ⟨s₁, hs₁, hb₁, hh₁⟩ := mergeSet_agrees h hd.nodup set
    rw [Storage.mergeSets, hs₁, Option.bind_eq_bind, Option.bind_some, Aggregation.mergeSets]
    cases hm : s.held.mergeSet set with
    | mk outcome a =>
      rw [hm] at hh₁
      cases outcome with
      | error e => exact ⟨s₁, rfl, hb₁, hh₁⟩
      | ok _ =>
        obtain ⟨hd₁, -, -⟩ := Aggregation.mergeSet_ok hd (he set List.mem_cons_self)
          (hid set List.mem_cons_self) hm
        have hd₁ : s₁.held.DataInv := by
          rw [hh₁]
          exact hd₁
        have hrest := ih hb₁ hd₁ (fun other ho => he other (List.mem_cons_of_mem _ ho))
          (fun other ho => hid other (List.mem_cons_of_mem _ ho))
        rw [hh₁] at hrest
        exact hrest

end Data

/-! ## 4. Definitions -/

/-- The length of the template message that would be written now. -/
def templateMessageLength (s : Storage) : Option Nat := do
  return Encoding.compact.headerLength
    + total ((← s.templates.inUse).map fun slot => Aggregation.setLength slot.specifiers)

/-- **Whether every definition can be retained**: the octets of one that is replaced are taken
from the length, and a place from those that are free. -/
def countTemplates (retained : List TemplateSlot) :
    List CompactSet → (free length : Nat) → Option (Except CodecError Nat)
  | [], _, length => some (.ok length)
  | set :: later, free, length =>
    if later.any (·.template == set.template) then countTemplates retained later free length
    else
      match retained.find? (·.template == set.template) with
      | some slot => do
        let length ← sub length (Aggregation.setLength slot.specifiers)
        countTemplates retained later free (length + Aggregation.setLength set.body)
      | none =>
        if free = 0 then some (.error (.templateSlotsExhausted set.template))
        else do
          let free ← sub free 1
          countTemplates retained later free (length + Aggregation.setLength set.body)

/-- The check of a template message. -/
def checkTemplates (sets : List CompactSet) (s : Storage) : Option (Except CodecError Unit) := do
  let retained ← s.templates.inUse
  let free ← sub s.templates.all.length s.templates.active
  let length ← s.templateMessageLength
  match ← countTemplates retained sets free length with
  | .error e => return .error e
  | .ok length =>
    if s.maxMessage < length then return .error (.bufferOverflow length s.maxMessage)
    else return .ok ()

/-- **Retains one definition.** -/
def retain (set : CompactSet) (s : Storage) : Option (Except CodecError Unit × Storage) := do
  let slot : TemplateSlot := ⟨set.template, set.count.toNat, set.body⟩
  match ← s.templates.position (·.template == set.template) with
  | some index =>
    let _ ← s.templates.all[index]?
    return (.ok (), { s with templates := s.templates.put index slot })
  | none =>
    if s.templates.active = s.templates.all.length then
      return (.error (.templateSlotsExhausted set.template), s)
    else
      let templates ← s.templates.occupy fun _ => slot
      return (.ok (), { s with templates })

/-- Retains definitions in order, up to the first that finds no place. -/
def retainAll : List CompactSet → Storage → Option (Except CodecError Unit × Storage)
  | [], s => some (.ok (), s)
  | set :: sets, s => do
    match ← s.retain set with
    | (.error e, s) => return (.error e, s)
    | (.ok (), s) => retainAll sets s

/-- The check that counts with `sub` is the exact one. -/
theorem countTemplates_eq (retained : List TemplateSlot) (sets : List CompactSet)
    (free length : Nat) : countTemplates retained sets free length
      = Aggregation.checkTemplatesExact retained sets free length := by
  induction sets generalizing free length with
  | nil => rfl
  | cons set later ih =>
    simp only [countTemplates, Aggregation.checkTemplatesExact]
    split
    · exact ih free length
    · cases retained.find? (·.template == set.template) with
      | some slot =>
        simp only [sub]
        by_cases hlt : length < Aggregation.setLength slot.specifiers
        · rw [if_pos hlt, if_neg (Nat.not_le.mpr hlt)]
          rfl
        · rw [if_neg hlt, if_pos (Nat.not_lt.mp hlt)]
          exact ih free _
      | none =>
        cases free with
        | zero => rfl
        | succ free => exact ih free _

section Definitions

variable {s : Storage} (h : s.Bounded)

include h

theorem retain_agrees (hn : (s.held.templates.map (·.template)).Nodup) (set : CompactSet) :
    Agrees (s.retain set) (s.held.retain set) := by
  unfold Storage.retain Aggregation.retain
  cases hfind : s.held.templates.find? (·.template == set.template) with
  | some old =>
    obtain ⟨index, hindex, hplace⟩ := Places.position_of_find h.templates hn hfind
    have hold : (old.template == set.template) = true :=
      List.find?_some (p := fun slot : TemplateSlot => slot.template == set.template) hfind
    have hany : s.held.templates.any (·.template == set.template) = true :=
      List.any_eq_true.mpr ⟨old, List.mem_of_find?_eq_some hfind, hold⟩
    have hlength : ∀ slot, (s.templates.put index slot).all.length = s.templates.all.length :=
      fun _ => List.length_set
    rw [if_pos hany, hindex]
    simp only [hplace.getElem, Option.bind_eq_bind, Option.bind_some, Option.pure_def]
    refine ⟨_, rfl, h.withTemplates h.templates (hlength _), ?_⟩
    simp only [held, hplace.put]
  | none =>
    have hany : ¬ s.held.templates.any (·.template == set.template) = true := by
      intro hany
      obtain ⟨old, hold, ht⟩ := List.any_eq_true.mp hany
      exact not_mem_of_find_none hfind old hold (beq_iff_eq.mp ht)
    have hused : s.held.templates.length = s.templates.active := Places.length_held h.templates
    have hplaces : s.held.maxTemplates = s.templates.all.length := h.places.symm
    rw [if_neg hany, Places.position_of_find_none h.templates hfind, hused, hplaces]
    simp only [Option.bind_eq_bind, Option.bind_some, Option.pure_def]
    by_cases hfull : s.templates.active = s.templates.all.length
    · rw [if_pos hfull, if_pos (Nat.le_of_eq hfull.symm)]
      exact ⟨s, rfl, h, rfl⟩
    · have hfree : s.templates.active < s.templates.all.length :=
        Nat.lt_of_le_of_ne h.templates hfull
      obtain ⟨q, hq, hheld, hactive, hlength⟩ := Places.occupy_eq hfree
        (fun _ => ⟨set.template, set.count.toNat, set.body⟩) fun _ => rfl
      rw [if_neg hfull, if_neg (Nat.not_le.mpr hfree), hq]
      refine ⟨{ s with templates := q }, rfl, ?_, ?_⟩
      · refine h.withTemplates ?_ hlength
        rw [hactive]
        exact hfree
      · simp only [held, hheld, ← h.places]

/-- **Retaining definitions that all find a place.** -/
theorem retainAll_agrees {sets : List CompactSet}
    (hn : (s.held.templates.map (·.template)).Nodup)
    (hroom : (Aggregation.placed sets s.held.templates).length ≤ s.held.maxTemplates) :
    Agrees (s.retainAll sets) (s.held.retainAll sets) := by
  induction sets generalizing s with
  | nil => exact ⟨s, rfl, h, rfl⟩
  | cons set sets ih =>
    rw [Aggregation.placed, List.map_cons, collectAll_cons] at hroom
    have hfirst := Nat.le_trans (length_le_collectAll (sets.map TemplateSlot.ofSet) _) hroom
    obtain ⟨s₁, hs₁, hb₁, hh₁⟩ := retain_agrees h hn set
    rw [Aggregation.retain_ok hn hfirst] at hs₁ hh₁
    have hrest := ih hb₁ (by rw [hh₁]; exact nodup_collect keepLast_key (.ofSet set) hn)
      (by rw [hh₁]; exact hroom)
    rw [hh₁] at hrest
    rw [Storage.retainAll, hs₁, Aggregation.retainAll, Aggregation.retain_ok hn hfirst]
    exact hrest

/-- **The check of a template message** subtracts nothing that is not there. -/
theorem checkTemplates_eq (ht : s.held.TemplateInv) (sets : List CompactSet) :
    s.checkTemplates sets = some (match Aggregation.checkTemplates s.held.templates sets
        (s.held.maxTemplates - s.held.templates.length) s.held.templateMessageLength with
      | .error e => .error e
      | .ok length =>
        if s.maxMessage < length then .error (.bufferOverflow length s.maxMessage)
        else .ok ()) := by
  obtain ⟨hexact, -, -⟩ := Aggregation.checkTemplates_spec ht sets
  have hlength : s.templateMessageLength = some s.held.templateMessageLength := by
    rw [templateMessageLength, Places.inUse_eq h.templates]
    rfl
  have hfree : s.templates.all.length - s.templates.active
      = s.held.maxTemplates - s.held.templates.length := by
    have hused : s.held.templates.length = s.templates.active := Places.length_held h.templates
    rw [hused, h.places]
    rfl
  rw [Storage.checkTemplates, Places.inUse_eq h.templates, sub_eq h.templates, hlength, hfree]
  simp only [Option.bind_eq_bind, Option.bind_some, countTemplates_eq]
  rw [show s.templates.held = s.held.templates from rfl, hexact]
  simp only [Option.bind_some]
  split
  · rfl
  · split
    · rfl
    · rfl

end Definitions

/-! ## 5. Whole messages -/

/-- **Merges a checked message**, its sets cut out of its octets. -/
def merge (m : CompactMessage) (s : Storage) : Option (Except CodecError Nat × Storage) := do
  let sets ← sets m.payload
  match m.kind with
  | .template =>
    match ← s.checkTemplates sets with
    | .error e => return (.error e, s)
    | .ok () =>
      match ← s.retainAll sets with
      | (.error e, s) => return (.error e, s)
      | (.ok (), s) => return (.ok 0, s)
  | .data =>
    let s ← s.checkpoint
    match ← s.mergeSets sets with
    | (.error e, s) => return (.error e, ← s.rollback)
    | (.ok (), s) => return (.ok (total (sets.map (·.count.toNat))), s)

/-- Gives up everything that is pending. -/
def reset (s : Storage) : Option Storage := do
  let data ← s.data.change 0 s.data.active clearData
  let templates ← s.templates.change 0 s.templates.active fun slot => { slot with specifiers := [] }
  return { s with
    data := { data with active := 0 }
    markActive := 0
    templates := { templates with active := 0 } }

/-- **A storage in use**: its marks lie within its places, and what it holds is in order. -/
structure Sound (s : Storage) : Prop where
  bounded : s.Bounded
  inv : s.held.Inv

theorem sound_empty {maxMessage : Nat} (places : Nat)
    (h : Encoding.compact.headerLength ≤ maxMessage) : (empty places maxMessage).Sound := by
  refine ⟨bounded_empty places maxMessage, ?_⟩
  rw [held_empty]
  exact Aggregation.inv_empty h

section Message

variable {s : Storage} (h : s.Sound)

include h

/-- **Merging never stops**, and does to the storage what it does to what the storage holds. -/
theorem merge_agrees {bytes : List UInt8} {m : CompactMessage}
    (hp : CompactMessage.parse bytes = .ok m) : Agrees (s.merge m) (s.held.merge m) := by
  obtain ⟨-, -, -, -, hc⟩ := CompactMessage.parse_eq_ok hp
  rw [Storage.merge, sets_of_parse hp, Option.bind_eq_bind, Option.bind_some, Aggregation.merge]
  cases hk : m.kind with
  | template =>
    simp only [checkTemplates_eq h.bounded h.inv.templates]
    cases hcheck : Aggregation.checkTemplates s.held.templates m.sets
        (s.held.maxTemplates - s.held.templates.length) s.held.templateMessageLength with
    | error e => exact ⟨s, rfl, h.bounded, rfl⟩
    | ok length =>
      simp only [show s.held.maxMessage = s.maxMessage from rfl]
      by_cases hlong : s.maxMessage < length
      · rw [if_pos hlong, if_pos hlong]
        exact ⟨s, rfl, h.bounded, rfl⟩
      · obtain ⟨s', hs', hb', hh'⟩ := retainAll_agrees h.bounded h.inv.templates.nodup
          (Aggregation.room_of_check h.inv.templates hcheck)
        rw [Aggregation.retainAll_of_check h.inv.templates hcheck] at hs' hh' ⊢
        rw [if_neg hlong, if_neg hlong]
        simp only [hs']
        exact ⟨s', rfl, hb', hh'⟩
  | data =>
    rw [hk] at hc
    obtain ⟨s₁, hs₁, hb₁, hh₁⟩ := checkpoint_eq h.bounded
    obtain ⟨s₂, hs₂, hb₂, hh₂⟩ := mergeSets_agrees hb₁ m.sets
      (by rw [hh₁]; exact h.inv.data.checkpoint)
      (fun set hs => CompactSet.isEven_of_check (hc set hs))
      (fun set hs => CompactMessage.template_of_mem_sets hp hs)
    rw [hh₁] at hs₂ hh₂
    cases hm : s.held.checkpoint.mergeSets m.sets with
    | mk outcome a =>
      rw [hm] at hs₂ hh₂
      cases outcome with
      | error e =>
        obtain ⟨s₃, hs₃, hb₃, hh₃⟩ := rollback_eq hb₂
        refine ⟨s₃, ?_, hb₃, by rw [hh₃, hh₂]⟩
        simp only [hs₁, hs₂, hs₃, Option.bind_eq_bind, Option.bind_some, Option.pure_def]
      | ok _ =>
        refine ⟨s₂, ?_, hb₂, hh₂⟩
        simp only [hs₁, hs₂, Option.bind_eq_bind, Option.bind_some, Option.pure_def,
          CompactMessage.recordCount, hk]

/-- **Merging keeps a storage sound.** -/
theorem merge_eq {bytes : List UInt8} {m : CompactMessage}
    (hp : CompactMessage.parse bytes = .ok m) : ∃ s',
      s.merge m = some ((s.held.merge m).1, s') ∧ s'.Sound ∧ s'.held = (s.held.merge m).2 := by
  obtain ⟨s', hs', hb', hh'⟩ := merge_agrees h hp
  refine ⟨s', hs', ⟨hb', ?_⟩, hh'⟩
  rw [hh']
  cases hm : s.held.merge m with
  | mk outcome a =>
    cases outcome with
    | error e =>
      obtain ⟨hinv, -⟩ := Aggregation.merge_error hp h.inv hm
      exact hinv
    | ok n =>
      obtain ⟨hinv, -⟩ := Aggregation.merge_ok hp h.inv hm
      exact hinv

/-- **Giving up what is pending never stops.** -/
theorem reset_eq : ∃ s', s.reset = some s' ∧ s'.Sound ∧ s'.held = s.held.reset := by
  obtain ⟨q, hq, -, -, -, hlength⟩ := Places.change_eq (Nat.zero_le _) h.bounded.data clearData
  obtain ⟨r, hr, -, -, -, hlength'⟩ := Places.change_eq (Nat.zero_le _) h.bounded.templates
    fun slot : TemplateSlot => { slot with specifiers := [] }
  have hheld : Storage.held { s with
      data := { q with active := 0 }
      markActive := 0
      templates := { r with active := 0 } } = s.held.reset := by
    simp only [held, Places.held, Aggregation.reset, hlength, List.take_zero]
  refine ⟨_, ?_, ⟨⟨Nat.zero_le _, Nat.le_refl _, Nat.zero_le _, ?_⟩, ?_⟩, hheld⟩
  · rw [reset, hq, Option.bind_eq_bind, Option.bind_some, hr]
    rfl
  · change r.all.length = q.all.length
    rw [hlength', hlength]
    exact h.bounded.places
  · rw [hheld]
    exact h.inv.reset

end Message

end Storage

end FlowExport.Checked
