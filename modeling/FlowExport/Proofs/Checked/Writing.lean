/-
# Writing with every operation checked

A buffer writes octets over a range of its storage, and a set that is closed subtracts where it
started from where it ends.  Here the operations on buffers and drafts that expand a message are
written with these two checked: a range has to lie within the storage and to be filled exactly
(`writeRange`), and a difference must not be below zero.

A buffer can never fail so, because it asks for room first and its mark lies within its storage
(`append_eq`, `patch_eq`).  A set can only be closed where it was opened: the content must not have
been cut below its start since (`closeSet_eq`), which holds of a set that is opened, filled and
closed in one go, since nothing but a failure cuts anything (`addPieces_eq`).  So expanding an
accepted message never stops (`expandMessage_eq`).
-/
import FlowExport.Proofs.Checked.Reading
import FlowExport.Proofs.Wire.Buffer
import FlowExport.Wire.Expansion

namespace FlowExport.Checked

/-! ## 1. Buffers -/

/-- **The storage with octets over the range from `start` up to `stop`**, if the range lies within
the storage and the octets fill it exactly. -/
def writeRange (storage : ByteArray) (start stop : Nat) (bytes : List UInt8) :
    Option { s : ByteArray // s.size = storage.size } :=
  if start ≤ stop ∧ stop ≤ storage.size ∧ bytes.length = stop - start then
    some ⟨Buffer.overwrite storage start bytes, Buffer.size_overwrite storage start bytes⟩
  else none

/-- Appends octets, all of them or none. -/
def append (b : Buffer) (bytes : List UInt8) : Option (Except CodecError Unit × Buffer) :=
  let needed := b.length + bytes.length
  if h : needed ≤ b.storage.size then do
    let storage ← writeRange b.storage b.length needed bytes
    return (.ok (), ⟨storage.1, needed, Nat.le_trans h (Nat.le_of_eq storage.2.symm)⟩)
  else some (.error (.bufferOverflow needed b.capacity), b)

/-- Appends chunk after chunk up to the first that does not fit. -/
def appendAll (b : Buffer) : List (List UInt8) → Option (Except CodecError Unit × Buffer)
  | [] => some (.ok (), b)
  | chunk :: chunks => do
    match ← append b chunk with
    | (.ok (), b) => appendAll b chunks
    | (.error e, b) => return (.error e, b)

/-- Writes over octets that are already there. -/
def patch (b : Buffer) (offset : Nat) (bytes : List UInt8) :
    Option (Except CodecError Unit × Buffer) :=
  if offset + bytes.length ≤ b.length then do
    let storage ← writeRange b.storage offset (offset + bytes.length) bytes
    return (.ok (), ⟨storage.1, b.length, Nat.le_trans b.length_le (Nat.le_of_eq storage.2.symm)⟩)
  else some (.error (.bufferOverflow (offset + bytes.length) b.length), b)

/-- The content of a buffer. -/
def content (b : Buffer) : Option (List UInt8) :=
  slice b.storage.data.toList 0 b.length

theorem writeRange_eq {storage : ByteArray} {start : Nat} {bytes : List UInt8}
    (h : start + bytes.length ≤ storage.size) :
    writeRange storage start (start + bytes.length) bytes
      = some ⟨Buffer.overwrite storage start bytes, Buffer.size_overwrite storage start bytes⟩ :=
  if_pos ⟨Nat.le_add_right _ _, h, (Nat.add_sub_cancel_left _ _).symm⟩

theorem append_eq (b : Buffer) (bytes : List UInt8) : append b bytes = some (b.append bytes) := by
  unfold append Buffer.append
  by_cases h : b.length + bytes.length ≤ b.storage.size
  · simp only [dif_pos h, writeRange_eq h, Option.bind_eq_bind, Option.bind_some, Option.pure_def]
  · simp only [dif_neg h]

theorem appendAll_eq (b : Buffer) (chunks : List (List UInt8)) :
    appendAll b chunks = some (b.appendAll chunks) := by
  induction chunks generalizing b with
  | nil => rfl
  | cons chunk chunks ih =>
    rw [appendAll, append_eq, Option.bind_eq_bind, Option.bind_some, Buffer.appendAll]
    rcases b.append chunk with ⟨e | ⟨⟩, b'⟩
    · rfl
    · exact ih b'

theorem patch_eq (b : Buffer) (offset : Nat) (bytes : List UInt8) :
    patch b offset bytes = some (b.patch offset bytes) := by
  unfold patch Buffer.patch
  by_cases h : offset + bytes.length ≤ b.length
  · simp only [if_pos h, writeRange_eq (Nat.le_trans h b.length_le), Option.bind_eq_bind,
      Option.bind_some, Option.pure_def]
  · simp only [if_neg h]

theorem content_eq (b : Buffer) : content b = some b.toList := by
  rw [content, slice_front b.length_le, Buffer.toList_eq_take]

/-- What is appended is never taken away. -/
theorem length_le_append (b : Buffer) (bytes : List UInt8) :
    b.length ≤ (b.append bytes).2.length := by
  simp only [Buffer.append]
  split
  · exact Nat.le_add_right _ _
  · exact Nat.le_refl _

theorem length_le_appendAll (b : Buffer) (chunks : List (List UInt8)) :
    b.length ≤ (b.appendAll chunks).2.length := by
  induction chunks generalizing b with
  | nil => exact Nat.le_refl _
  | cons chunk chunks ih =>
    have hfirst := length_le_append b chunk
    rw [Buffer.appendAll]
    split
    · rename_i b' hok
      rw [hok] at hfirst
      exact Nat.le_trans hfirst (ih b')
    · rename_i e b' herr
      rw [herr] at hfirst
      exact hfirst

/-! ## 2. Drafts -/

/-- **An operation on a draft** that may stop. -/
abbrev Step (α : Type) := Draft → Option (Except CodecError α × Draft)

/-- Begins a message in a cleared buffer. -/
def beginMessage (buffer : Buffer) (exporter : Exporter) (encoding : Encoding) (kind : Kind)
    (time : UInt32) : Option (Except CodecError Unit × Draft × Exporter) := do
  match ← appendAll buffer.clear (headerChunks exporter time kind encoding) with
  | (.ok (), buffer) =>
    return (.ok (), ⟨buffer, encoding, kind, exporter.sequence, 0, 0⟩, exporter.advance)
  | (.error e, buffer) =>
    return (.error e, ⟨buffer, encoding, kind, exporter.sequence, 0, 0⟩, exporter)

/-- Appends chunks to the message. -/
def write (chunks : List (List UInt8)) : Step Unit := fun d => do
  let (outcome, buffer) ← appendAll d.buffer chunks
  return (outcome, { d with buffer })

/-- The compact set id of a template. -/
def compactSetId (template : UInt16) : Option (Except CodecError UInt8) :=
  if minTemplateId ≤ template ∧ template ≤ maxCompactId then do
    return .ok (UInt8.ofNat (← sub template.toNat 256))
  else some (.error (.templateNotCompact template))

/-- The parts of a set header. -/
def setHeaderChunks (encoding : Encoding) (kind : Kind) (template : UInt16) (count : Nat) :
    Option (Except CodecError (List (List UInt8))) :=
  match encoding, kind with
  | .full, kind => some (FlowExport.setHeaderChunks .full kind template count)
  | .compact, _ =>
    if maxCompactCount < count then
      some (.error (.tooManyRecords template count maxCompactCount))
    else do
      return (← compactSetId template).map fun set =>
        [[set], Octets.ofNat 1 count, Octets.ofNat 2 0]

/-- Opens a set. -/
def openSet (template : UInt16) (count : Nat) : Step OpenSet := fun d => do
  let start := d.buffer.length
  match ← setHeaderChunks d.encoding d.kind template count with
  | .error e => return (.error e, d)
  | .ok chunks =>
    match ← write chunks d with
    | (.ok (), d) => return (.ok ⟨start, count⟩, d)
    | (.error e, d) => return (.error e, d.truncate start)

/-- Closes a set by writing its length into its header. -/
def closeSet (start : Nat) : Step Unit := fun d => do
  let length ← sub d.buffer.length start
  if maxLength < length then return (.error (.bufferOverflow length maxLength), d)
  else
    match ← patch d.buffer (start + 2) (Octets.ofNat 2 length) with
    | (.ok (), buffer) => return (.ok (), { d with buffer, sets := d.sets + 1 })
    | (.error e, buffer) => return (.error e, { d with buffer })

/-- Closes a set that was opened and extended by hand. -/
def close (set : OpenSet) : Step Unit := fun d => do
  match ← closeSet set.start d with
  | (.error e, d) => return (.error e, d)
  | (.ok (), d) =>
    match d.kind with
    | .template => return (.ok (), d)
    | .data => return (.ok (), { d with records := d.records + set.count })

/-- **Adds a set with a body given in pieces.** -/
def addPieces (template : UInt16) (count : Nat) (pieces : List (List UInt8)) : Step Unit :=
  fun d => do
  match ← openSet template count d with
  | (.error e, d) => return (.error e, d)
  | (.ok set, d) =>
    match ← write pieces d with
    | (.error e, d) => return (.error e, d.abandon set)
    | (.ok (), d) => close set d

/-- Finishes the message and hands out its octets. -/
def finish : Step (List UInt8) := fun d => do
  let length := d.buffer.length
  if maxLength < length then return (.error (.bufferOverflow length maxLength), d)
  else
    match ← patch d.buffer d.encoding.lengthOffset (Octets.ofNat 2 length) with
    | (.ok (), buffer) => return (.ok (← content buffer), { d with buffer })
    | (.error e, buffer) => return (.error e, { d with buffer })

/-- One operation after the other, up to the first that fails. -/
def fillAll : List (Step Unit) → Step Unit
  | [], d => some (.ok (), d)
  | step :: steps, d => do
    match ← step d with
    | (.error e, d) => return (.error e, d)
    | (.ok (), d) => fillAll steps d

/-- **A message written in one go.** -/
def compose (buffer : Buffer) (exporter : Exporter) (encoding : Encoding) (kind : Kind)
    (time : UInt32) (fill : Step Unit) :
    Option (Except CodecError (List UInt8) × Buffer × Exporter) := do
  match ← beginMessage buffer exporter encoding kind time with
  | (.error e, d, exporter) => return (.error e, d.buffer, exporter)
  | (.ok (), d, exporter) =>
    match ← fill d with
    | (.error e, d) => return (.error e, d.buffer, exporter)
    | (.ok (), d) =>
      let (outcome, d) ← finish d
      return (outcome, d.buffer, exporter)

theorem beginMessage_eq (buffer : Buffer) (exporter : Exporter) (encoding : Encoding) (kind : Kind)
    (time : UInt32) : beginMessage buffer exporter encoding kind time
      = some (Draft.begin buffer exporter encoding kind time) := by
  rw [beginMessage, appendAll_eq, Option.bind_eq_bind, Option.bind_some, Draft.begin]
  rcases buffer.clear.appendAll (headerChunks exporter time kind encoding) with ⟨e | ⟨⟩, buffer'⟩
  · rfl
  · rfl

theorem write_eq (chunks : List (List UInt8)) (d : Draft) :
    write chunks d = some (d.write chunks) := by
  rw [write, appendAll_eq]
  rfl

theorem compactSetId_eq (template : UInt16) :
    compactSetId template = some (FlowExport.compactSetId template) := by
  unfold compactSetId FlowExport.compactSetId
  split
  · rename_i h
    have hge : 256 ≤ template.toNat := UInt16.le_iff_toNat_le.mp h.1
    rw [sub_eq hge]
    rfl
  · rfl

theorem setHeaderChunks_eq (encoding : Encoding) (kind : Kind) (template : UInt16) (count : Nat) :
    setHeaderChunks encoding kind template count
      = some (FlowExport.setHeaderChunks encoding kind template count) := by
  cases encoding with
  | full => rfl
  | compact =>
    simp only [setHeaderChunks, FlowExport.setHeaderChunks, compactSetId_eq]
    split
    · rfl
    · rfl

theorem openSet_eq (template : UInt16) (count : Nat) (d : Draft) :
    openSet template count d = some (d.openSet template count) := by
  rw [openSet, setHeaderChunks_eq, Option.bind_eq_bind, Option.bind_some, Draft.openSet]
  rcases FlowExport.setHeaderChunks d.encoding d.kind template count with e | chunks
  · rfl
  · simp only [write_eq]
    rcases d.write chunks with ⟨e | ⟨⟩, d'⟩
    · rfl
    · rfl

/-- **A set that starts within the content is closed** without going below zero. -/
theorem closeSet_eq {start : Nat} {d : Draft} (h : start ≤ d.buffer.length) :
    closeSet start d = some (d.closeSet start) := by
  rw [closeSet, sub_eq h, Option.bind_eq_bind, Option.bind_some, Draft.closeSet]
  simp only [patch_eq]
  split
  · rfl
  · rcases d.buffer.patch (start + 2) (Octets.ofNat 2 (d.buffer.length - start)) with
      ⟨e | ⟨⟩, buffer⟩
    · rfl
    · rfl

theorem close_eq {set : OpenSet} {d : Draft} (h : set.start ≤ d.buffer.length) :
    close set d = some (d.close set) := by
  rw [close, closeSet_eq h, Option.bind_eq_bind, Option.bind_some, Draft.close]
  rcases d.closeSet set.start with ⟨e | ⟨⟩, d'⟩
  · rfl
  · simp only
    cases d'.kind with
    | template => rfl
    | data => rfl

/-- What is written goes behind what is there. -/
theorem length_le_write (chunks : List (List UInt8)) (d : Draft) :
    d.buffer.length ≤ (d.write chunks).2.buffer.length :=
  length_le_appendAll d.buffer chunks

/-- A set that is opened starts where the content ended. -/
theorem start_of_openSet {template : UInt16} {count : Nat} {d d' : Draft} {set : OpenSet}
    (h : d.openSet template count = (.ok set, d')) : set.start ≤ d'.buffer.length := by
  unfold Draft.openSet at h
  simp only at h
  split at h
  · simp at h
  · rename_i chunks hchunks
    have hlong := length_le_write chunks d
    split at h
    · rename_i d₁ hwrite
      rw [hwrite] at hlong
      obtain ⟨hset, rfl⟩ := Prod.mk.inj h
      obtain rfl := Except.ok.inj hset
      exact hlong
    · simp at h

/-- **A set that is opened, filled and closed in one go** never stops the program. -/
theorem addPieces_eq (template : UInt16) (count : Nat) (pieces : List (List UInt8)) (d : Draft) :
    addPieces template count pieces d = some (d.addPieces template count pieces) := by
  rw [addPieces, openSet_eq, Option.bind_eq_bind, Option.bind_some, Draft.addPieces]
  cases hopen : d.openSet template count with
  | mk outcome d₁ =>
    cases outcome with
    | error e => rfl
    | ok set =>
      have hstart := start_of_openSet hopen
      have hlong := length_le_write pieces d₁
      simp only [write_eq]
      cases hwrite : d₁.write pieces with
      | mk outcome d₂ =>
        rw [hwrite] at hlong
        cases outcome with
        | error e => rfl
        | ok _ => exact close_eq (Nat.le_trans hstart hlong)

theorem finish_eq (d : Draft) : finish d = some d.finish := by
  rw [finish, Draft.finish]
  simp only [patch_eq, content_eq, Option.bind_eq_bind, Option.bind_some]
  split
  · rfl
  · rcases d.buffer.patch d.encoding.lengthOffset (Octets.ofNat 2 d.buffer.length) with
      ⟨e | ⟨⟩, buffer⟩
    · rfl
    · rfl

/-- **Operations that never stop** never stop one after the other. -/
theorem fillAll_eq {ι : Type} {xs : List ι} {step : ι → Step Unit} {plain : ι → Draft.Step Unit}
    (h : ∀ x ∈ xs, ∀ d, step x d = some (plain x d)) (d : Draft) :
    fillAll (xs.map step) d = some (Draft.fillAll (xs.map plain) d) := by
  induction xs generalizing d with
  | nil => rfl
  | cons x xs ih =>
    rw [List.map_cons, List.map_cons, fillAll, h x List.mem_cons_self, Option.bind_eq_bind,
      Option.bind_some, Draft.fillAll]
    rcases plain x d with ⟨e | ⟨⟩, d'⟩
    · rfl
    · exact ih (fun y hy => h y (List.mem_cons_of_mem _ hy)) d'

theorem compose_eq {fill : Step Unit} {plain : Draft.Step Unit}
    (h : ∀ d, fill d = some (plain d)) (buffer : Buffer) (exporter : Exporter)
    (encoding : Encoding) (kind : Kind) (time : UInt32) :
    compose buffer exporter encoding kind time fill
      = some (Draft.compose buffer exporter encoding kind time plain) := by
  rw [compose, beginMessage_eq, Option.bind_eq_bind, Option.bind_some, Draft.compose]
  rcases Draft.begin buffer exporter encoding kind time with ⟨e | ⟨⟩, d, exporter'⟩
  · rfl
  · simp only [h]
    rcases plain d with ⟨e | ⟨⟩, d'⟩
    · rfl
    · simp only [finish_eq]
      rfl

/-! ## 3. Expanding a message -/

/-- **The specifier of the source field**, written range by range into eight octets. -/
def sourceTag : Option (List UInt8) := do
  let out : ByteArray := ⟨Array.replicate 8 0⟩
  let out ← writeRange out 0 2 (Octets.ofNat 2 sourceSpecifier.id.toNat)
  let out ← writeRange out.1 2 4 (Octets.ofNat 2 sourceSpecifier.size.toNat)
  let out ← writeRange out.1 4 out.1.size (Octets.ofNat 4 sourceSpecifier.enterprise.toNat)
  return out.1.data.toList

/-- Adds a set to a full message. -/
def expand (kind : Kind) (source : Option Address) (s : CompactSet) : Step Unit := fun d => do
  match kind, source with
  | .template, none => addPieces s.template s.count.toNat [s.body] d
  | .template, some _ =>
    let tag ← sourceTag
    addPieces s.template (s.count.toNat + 1) [s.body, tag] d
  | .data, none => addPieces s.template s.count.toNat [s.body] d
  | .data, some address =>
    let records ← records s
    addPieces s.template s.count.toNat
      (records.flatMap fun record => [record, address.octets]) d

/-- **Writes a message in full**, its sets cut out of its octets. -/
def expandMessage (m : CompactMessage) (buffer : Buffer) (exporter : Exporter) (time : UInt32)
    (source : Option Address) :
    Option (Except CodecError (List UInt8) × Buffer × Exporter) := do
  let sets ← sets m.payload
  compose buffer exporter .full m.kind time (fillAll (sets.map (expand m.kind source)))

theorem sourceTag_eq : sourceTag = some sourceSpecifier.encode := by
  decide +kernel

theorem expand_eq (kind : Kind) (source : Option Address) (s : CompactSet) (d : Draft) :
    expand kind source s d = some (s.expand kind source d) := by
  unfold expand CompactSet.expand
  rcases kind with _ | _ <;> rcases source with _ | address
  · exact addPieces_eq _ _ _ d
  · rw [sourceTag_eq]
    exact addPieces_eq _ _ _ d
  · exact addPieces_eq _ _ _ d
  · rw [records_eq]
    exact addPieces_eq _ _ _ d

/-- **Expanding an accepted message never stops.** -/
theorem expandMessage_eq {bytes : List UInt8} {m : CompactMessage}
    (h : CompactMessage.parse bytes = .ok m) (buffer : Buffer) (exporter : Exporter)
    (time : UInt32) (source : Option Address) :
    expandMessage m buffer exporter time source
      = some (m.expand buffer exporter time source) := by
  rw [expandMessage, sets_of_parse h, Option.bind_eq_bind, Option.bind_some]
  refine compose_eq (fun d => fillAll_eq ?_ d) buffer exporter .full m.kind time
  intro s _ d
  exact expand_eq m.kind source s d

end FlowExport.Checked
