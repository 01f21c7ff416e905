/-
# Drafts that no operation tells apart

To cut a message back is to move the fill mark of its buffer: the octets that were cut away are
left over behind the mark.  So a draft that was cut back is not equal to the draft it was before,
but no operation reads what is left over.  Drafts are `Alike` where everything that an operation
reads is the same.

`Respects` says of an operation that it has the same outcome on drafts that are alike, and leaves
them alike.  Every operation on a draft is made of parts in one way, which `Respects.andThen`
covers: a part, then the rest of the operation where the part succeeds, or a cut where it fails.
-/
import FlowExport.Proofs.Wire.Draft

namespace FlowExport

/-! ## 1. Buffers -/

namespace Buffer

/-- **Buffers with the same content and capacity**, whatever is left over behind the mark. -/
structure Alike (b b' : Buffer) : Prop where
  toList : b'.toList = b.toList
  capacity : b'.capacity = b.capacity

namespace Alike

variable {b b' : Buffer} (h : b.Alike b')

include h

theorem length : b'.length = b.length := by
  rw [← length_toList, h.toList, length_toList]

theorem remaining : b'.remaining = b.remaining := by
  rw [Buffer.remaining, Buffer.remaining, h.capacity, h.length]

/-- What needs and gives the same on both has one outcome. -/
theorem of_does {needed limit : Nat} {content : List UInt8}
    {p p' : Except CodecError Unit × Buffer} (hd : b.Does needed limit content p)
    (hd' : b'.Does needed limit content p') :
    ∃ r c c', p = (r, c) ∧ p' = (r, c') ∧ c.Alike c' :=
  ⟨p.1, p.2, p'.2, rfl, Prod.ext (hd'.outcome.trans hd.outcome.symm) rfl,
    by rw [hd'.toList, hd.toList, h.toList], by rw [hd'.capacity, hd.capacity, h.capacity]⟩

theorem append (bytes : List UInt8) :
    ∃ r c c', b.append bytes = (r, c) ∧ b'.append bytes = (r, c') ∧ c.Alike c' := by
  have hd := append_does b' bytes
  rw [h.toList, h.capacity] at hd
  exact h.of_does (append_does b bytes) hd

theorem patch (offset : Nat) (bytes : List UInt8) :
    ∃ r c c', b.patch offset bytes = (r, c) ∧ b'.patch offset bytes = (r, c') ∧ c.Alike c' := by
  have hd := patch_does b' offset bytes
  rw [h.toList] at hd
  exact h.of_does (patch_does b offset bytes) hd

theorem truncate (length : Nat) : (b.truncate length).Alike (b'.truncate length) :=
  ⟨by rw [toList_truncate, toList_truncate, h.toList],
    by rw [capacity_truncate, capacity_truncate, h.capacity]⟩

end Alike

theorem Alike.appendAll {b b' : Buffer} (h : b.Alike b') (chunks : List (List UInt8)) :
    ∃ r c c', b.appendAll chunks = (r, c) ∧ b'.appendAll chunks = (r, c') ∧ c.Alike c' := by
  induction chunks generalizing b b' with
  | nil => exact ⟨.ok (), b, b', rfl, rfl, h⟩
  | cons chunk chunks ih =>
    obtain ⟨r, c, c', ha, ha', hc⟩ := h.append chunk
    simp only [Buffer.appendAll, ha, ha']
    cases r with
    | error e => exact ⟨_, c, c', rfl, rfl, hc⟩
    | ok _ => exact ih hc

end Buffer

namespace Draft

/-! ## 2. Drafts -/

/-- **Drafts that no operation tells apart.** -/
structure Alike (d d' : Draft) : Prop where
  buffer : d.buffer.Alike d'.buffer
  encoding : d'.encoding = d.encoding
  kind : d'.kind = d.kind
  sequence : d'.sequence = d.sequence
  sets : d'.sets = d.sets
  records : d'.records = d.records

/-- What nothing was appended to is as it was. -/
theorem Extends.alike {d d' : Draft} (h : Extends d d' [] 0 0) : Alike d d' :=
  ⟨⟨by rw [h.toList, List.append_nil], h.capacity⟩, h.encoding, h.kind, h.sequence, h.sets,
    h.records⟩

namespace Alike

variable {d d' : Draft} (h : Alike d d')

include h

theorem withBuffer {b b' : Buffer} (hb : b.Alike b') :
    Alike { d with buffer := b } { d' with buffer := b' } :=
  ⟨hb, h.encoding, h.kind, h.sequence, h.sets, h.records⟩

theorem addSets (n : Nat) :
    Alike { d with sets := d.sets + n } { d' with sets := d'.sets + n } :=
  ⟨h.buffer, h.encoding, h.kind, h.sequence, congrArg (· + n) h.sets, h.records⟩

theorem addRecords (n : Nat) :
    Alike { d with records := d.records + n } { d' with records := d'.records + n } :=
  ⟨h.buffer, h.encoding, h.kind, h.sequence, h.sets, congrArg (· + n) h.records⟩

theorem truncate (length : Nat) : Alike (d.truncate length) (d'.truncate length) :=
  h.withBuffer (h.buffer.truncate length)

theorem expectKind (kind : Kind) : d'.expectKind kind = d.expectKind kind := by
  rw [Draft.expectKind, Draft.expectKind, h.kind]

end Alike

/-- **An operation that does not tell drafts apart**: the same outcome, and drafts that are alike
again. -/
def Respects {α : Type} (step : Step α) : Prop :=
  ∀ ⦃d d' : Draft⦄, Alike d d' →
    ∃ r d₁ d₁', step d = (r, d₁) ∧ step d' = (r, d₁') ∧ Alike d₁ d₁'

/-! ## 3. Operations -/

theorem respects_write (chunks : List (List UInt8)) : Respects (write chunks) := by
  intro d d' h
  obtain ⟨r, b, b', ha, ha', hb⟩ := h.buffer.appendAll chunks
  simp only [write, ha, ha']
  exact ⟨r, _, _, rfl, rfl, h.withBuffer hb⟩

theorem respects_openSet (template : UInt16) (count : Nat) :
    Respects (openSet template count) := by
  intro d d' h
  simp only [openSet, h.encoding, h.kind, h.buffer.length]
  cases setHeaderChunks d.encoding d.kind template count with
  | error e => exact ⟨_, _, _, rfl, rfl, h⟩
  | ok chunks =>
    obtain ⟨r, d₁, d₁', hw, hw', h₁⟩ := respects_write chunks h
    simp only [hw, hw']
    cases r with
    | error e => exact ⟨_, _, _, rfl, rfl, h₁.truncate _⟩
    | ok _ => exact ⟨_, _, _, rfl, rfl, h₁⟩

theorem respects_closeSet (start : Nat) : Respects (closeSet start) := by
  intro d d' h
  simp only [closeSet, h.buffer.length]
  split
  · exact ⟨_, _, _, rfl, rfl, h⟩
  · obtain ⟨r, b, b', hp, hp', hb⟩ := h.buffer.patch (start + 2)
      (Octets.ofNat 2 (d.buffer.length - start))
    simp only [hp, hp']
    cases r with
    | error e => exact ⟨_, _, _, rfl, rfl, h.withBuffer hb⟩
    | ok _ => exact ⟨_, _, _, rfl, rfl, (h.withBuffer hb).addSets 1⟩

theorem respects_close (set : OpenSet) : Respects (close set) := by
  intro d d' h
  obtain ⟨r, d₁, d₁', hc, hc', h₁⟩ := respects_closeSet set.start h
  simp only [close, hc, hc']
  cases r with
  | error e => exact ⟨_, _, _, rfl, rfl, h₁⟩
  | ok _ =>
    cases hk : d₁.kind with
    | template =>
      have hk' : d₁'.kind = .template := h₁.kind.trans hk
      exact ⟨.ok (), d₁, d₁', by simp only [hk], by simp only [hk'], h₁⟩
    | data =>
      have hk' : d₁'.kind = .data := h₁.kind.trans hk
      exact ⟨.ok (), { d₁ with records := d₁.records + set.count },
        { d₁' with records := d₁'.records + set.count }, by simp only [hk], by simp only [hk'],
        h₁.addRecords set.count⟩

/-- **Sets of encoded octets.** -/
theorem respects_addPieces (template : UInt16) (count : Nat) (pieces : List (List UInt8)) :
    Respects (addPieces template count pieces) := by
  intro d d' h
  obtain ⟨r, d₁, d₁', ho, ho', h₁⟩ := respects_openSet template count h
  simp only [addPieces, ho, ho']
  cases r with
  | error e => exact ⟨_, _, _, rfl, rfl, h₁⟩
  | ok set =>
    obtain ⟨r, d₂, d₂', hw, hw', h₂⟩ := respects_write pieces h₁
    simp only [hw, hw']
    cases r with
    | error e => exact ⟨_, _, _, rfl, rfl, h₂.truncate set.start⟩
    | ok _ => exact respects_close set h₂

/-- **Sets of definitions.** -/
theorem respects_addTemplate {R : Type} (t : Template R) : Respects (addTemplate t) := by
  intro d d' h
  simp only [addTemplate, h.expectKind]
  cases d.expectKind .template with
  | error e => exact ⟨_, _, _, rfl, rfl, h⟩
  | ok _ =>
    obtain ⟨r, d₁, d₁', ho, ho', h₁⟩ := respects_openSet t.id t.elements.length h
    simp only [ho, ho']
    cases r with
    | error e => exact ⟨_, _, _, rfl, rfl, h₁⟩
    | ok set =>
      obtain ⟨r, d₂, d₂', hw, hw', h₂⟩ := respects_write (t.specifiers.flatMap (·.chunks)) h₁
      simp only [hw, hw']
      cases r with
      | error e => exact ⟨_, _, _, rfl, rfl, h₂.truncate set.start⟩
      | ok _ =>
        obtain ⟨r, d₃, d₃', hc, hc', h₃⟩ := respects_closeSet set.start h₂
        simp only [hc, hc']
        cases r with
        | error e => exact ⟨_, _, _, rfl, rfl, h₃.truncate set.start⟩
        | ok _ => exact ⟨_, _, _, rfl, rfl, h₃⟩

/-- **Sets of records.** -/
theorem respects_addData {R : Type} (t : Template R) (source : RecordSource R) :
    Respects (addData t source) := by
  intro d d' h
  simp only [addData, h.expectKind, h.encoding, h.buffer.length, h.buffer.capacity,
    h.buffer.remaining]
  cases d.expectKind .data with
  | error e => exact ⟨_, _, _, rfl, rfl, h⟩
  | ok _ =>
    simp only
    by_cases hfull : d.buffer.remaining
        < d.encoding.setHeaderLength + source.announced * t.recordWidth
    · simp only [if_pos hfull]
      exact ⟨_, _, _, rfl, rfl, h⟩
    · simp only [if_neg hfull]
      obtain ⟨r, d₁, d₁', ho, ho', h₁⟩ := respects_openSet t.id source.announced h
      simp only [ho, ho']
      cases r with
      | error e => exact ⟨_, _, _, rfl, rfl, h₁⟩
      | ok set =>
        obtain ⟨r, d₂, d₂', hw, hw', h₂⟩ :=
          respects_write ((source.records.take source.announced).flatMap t.fields) h₁
        simp only [hw, hw']
        cases r with
        | error e => exact ⟨_, _, _, rfl, rfl, h₂.truncate set.start⟩
        | ok _ =>
          by_cases hcount : source.records.length ≠ source.announced
          · simp only [if_pos hcount]
            exact ⟨_, _, _, rfl, rfl, h₂.truncate set.start⟩
          · simp only [if_neg hcount]
            obtain ⟨r, d₃, d₃', hc, hc', h₃⟩ := respects_closeSet set.start h₂
            simp only [hc, hc']
            cases r with
            | error e => exact ⟨_, _, _, rfl, rfl, h₃⟩
            | ok _ => exact ⟨_, _, _, rfl, rfl, h₃.addRecords source.announced⟩

/-- **Finishing**: the same octets, or the same error. -/
theorem respects_finish : Respects finish := by
  intro d d' h
  have hoffset : d'.encoding.lengthOffset = d.encoding.lengthOffset := by rw [h.encoding]
  simp only [finish, h.buffer.length, hoffset]
  split
  · exact ⟨_, _, _, rfl, rfl, h⟩
  · obtain ⟨r, b, b', hp, hp', hb⟩ := h.buffer.patch d.encoding.lengthOffset
      (Octets.ofNat 2 d.buffer.length)
    simp only [hp, hp']
    cases r with
    | error e => exact ⟨_, _, _, rfl, rfl, h.withBuffer hb⟩
    | ok _ =>
      simp only [hb.toList]
      exact ⟨_, _, _, rfl, rfl, h.withBuffer hb⟩

end Draft

end FlowExport
