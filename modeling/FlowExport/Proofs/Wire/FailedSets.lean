/-
# Sets that fail

A set is added by a call, or copied as octets that are encoded already (`Addition`).  An addition
that fails leaves the draft as it was, and everything after it goes as if it had not been made:
the same additions succeed and fail, and the message that is finished is the same.

There is one exception, and `Strands` says exactly where it is.  A set of records or of octets that
fits in the buffer but is too long to announce its length is not taken out when it cannot be
closed.  It stays in the draft with a length of zero, the counters do not count it, and the message
cannot be finished any more.  Only a buffer of more than 65535 octets has room for such a set.
-/
import FlowExport.Proofs.Wire.Alike
import FlowExport.Proofs.Wire.Calls
import Mathlib

namespace FlowExport.Draft

/-! ## 1. Additions -/

/-- **An addition of a set**: a call, or octets that are encoded already. -/
inductive Addition : Type 1 where
  | call (c : Call)
  | raw (template : UInt16) (count : Nat) (body : List UInt8)

namespace Addition

/-- What the addition does to a draft. -/
def step : Addition → Step Unit
  | .call c => c.step
  | .raw template count body => addRaw template count body

/-- The id of the template that the set is about. -/
def template : Addition → UInt16
  | .call c => c.template
  | .raw template _ _ => template

/-- The number of fields or of records. -/
def count : Addition → Nat
  | .call c => c.count
  | .raw _ count _ => count

/-- The frame of the set in a message like the draft. -/
def frame (d : Draft) : Addition → Frame
  | .call c => c.frame d.encoding
  | .raw template count body => .ofSet d.encoding d.kind template count body

/-- **Whether the set stays where it cannot be closed.**  A definition is taken out; records that
were announced as they come, and octets, are not. -/
def Unguarded (d : Draft) : Addition → Prop
  | .call (.define _) => False
  | .call (.add _ source) => d.kind = .data ∧ source.records.length = source.announced
  | .raw _ _ _ => True

/-- **A set that is left behind**: the encoding can name it and the buffer has room for it, but it
is too long to announce its length. -/
structure Strands (a : Addition) (d : Draft) : Prop where
  unguarded : a.Unguarded d
  carries : d.encoding.Carries a.template a.count
  room : d.buffer.length + (a.frame d).encode.length ≤ d.buffer.capacity
  overlong : maxLength < (a.frame d).encode.length

/-- A buffer of at most 65535 octets has no room for such a set. -/
theorem not_strands_of_capacity {a : Addition} {d : Draft} (h : d.buffer.capacity ≤ maxLength) :
    ¬ a.Strands d := by
  intro hs
  have hroom := hs.room
  have hlong := hs.overlong
  omega

theorem respects (a : Addition) : Respects a.step := by
  cases a with
  | raw template count body => exact respects_addPieces template count [body]
  | call c =>
    cases c with
    | define t => exact respects_addTemplate t
    | add t source =>
      intro d d' h
      obtain ⟨r, d₁, d₁', hs, hs', h₁⟩ := respects_addData t source h
      exact ⟨_, d₁, d₁', step_add hs, step_add hs', h₁⟩

end Addition

/-- **Makes additions in order**, whatever their outcomes, and returns the outcomes. -/
def addAll : List Addition → Draft → List (Except CodecError Unit) × Draft
  | [], d => ([], d)
  | a :: later, d =>
    let (outcome, d) := a.step d
    let (outcomes, d) := addAll later d
    (outcome :: outcomes, d)

/-! ## 2. What one addition can do -/

section Raw

variable {d : Draft} {template : UInt16} {count : Nat} (body : List UInt8)

theorem addRaw_unnamed (hc : ¬ d.encoding.Carries template count) :
    ∃ e d', addRaw template count body d = (.error e, d') ∧ Extends d d' [] 0 0 := by
  obtain ⟨e, d₁, ho, hx⟩ := openSet_error (Or.inl hc)
  exact ⟨e, d₁, by simp only [addRaw, addPieces, ho], hx⟩

theorem addRaw_overlong (hc : d.encoding.Carries template count)
    (hroom : d.buffer.length + (Frame.ofSet d.encoding d.kind template count body).encode.length
      ≤ d.buffer.capacity)
    (hlong : maxLength < (Frame.ofSet d.encoding d.kind template count body).encode.length) :
    ∃ e d', addRaw template count body d = (.error e, d') ∧
      Extends d d' (Frame.ofSet d.encoding d.kind template count body).opened 0 0 := by
  have hflat : [body].flatten = body := List.append_nil body
  rw [← hflat] at hroom hlong
  obtain ⟨d₁, d₂, e, ho, hw, hcl, hx⟩ := fill_overlong hc hroom hlong
  rw [hflat] at hx
  exact ⟨e, d₂, by simp only [addRaw, addPieces, ho, hw, close, hcl], hx⟩

end Raw

/-- **What an addition can do** to a draft. -/
inductive Addition.Outcome (a : Addition) (d : Draft) : Prop
  /-- It succeeds and appends the frame of its set. -/
  | added (d' : Draft) (records : Nat) (hstep : a.step d = (.ok (), d'))
      (h : Extends d d' (a.frame d).encode 1 records)
  /-- It fails and leaves the draft as it was. -/
  | refused (e : CodecError) (d' : Draft) (hstep : a.step d = (.error e, d'))
      (h : Extends d d' [] 0 0)
  /-- It fails and leaves its set behind, open. -/
  | stranded (e : CodecError) (d' : Draft) (hs : a.Strands d) (hstep : a.step d = (.error e, d'))
      (h : Extends d d' (a.frame d).opened 0 0)

namespace Addition

theorem Strands.step {a : Addition} {d : Draft} (h : a.Strands d) :
    ∃ e d', a.step d = (.error e, d') ∧ Extends d d' (a.frame d).opened 0 0 := by
  obtain ⟨hfree, hc, hroom, hlong⟩ := h
  cases a with
  | raw template count body => exact addRaw_overlong body hc hroom hlong
  | call c =>
    cases c with
    | define t => exact hfree.elim
    | add t source =>
      obtain ⟨announced, records⟩ := source
      obtain ⟨hk, hcount⟩ := hfree
      obtain rfl : records.length = announced := hcount
      exact add_overlong t records hk hc hroom hlong

/-- A draft with such a set is longer than a message can be. -/
theorem Strands.long {a : Addition} {d d' : Draft} (h : a.Strands d)
    (hx : Extends d d' (a.frame d).opened 0 0) : maxLength < d'.buffer.length := by
  have hover := h.overlong
  rw [hx.length, Frame.length_opened]
  omega

theorem outcome_raw (template : UInt16) (count : Nat) (body : List UInt8) (d : Draft) :
    (Addition.raw template count body).Outcome d := by
  by_cases hc : d.encoding.Carries template count
  · have hwrites := writes_addRaw d.kind body hc
    rcases Nat.lt_or_ge d.buffer.capacity (d.buffer.length
        + (Frame.ofSet d.encoding d.kind template count body).encode.length) with hfull | hroom
    · obtain ⟨e, d₁, hstep, hx⟩ := hwrites.error d rfl rfl hfull
      exact .refused e d₁ hstep hx
    · rcases Nat.lt_or_ge maxLength
          (Frame.ofSet d.encoding d.kind template count body).encode.length with hlong | hshort
      · obtain ⟨e, d₁, hstep, hx⟩ := addRaw_overlong body hc hroom hlong
        exact .stranded e d₁ ⟨trivial, hc, hroom, hlong⟩ hstep hx
      · obtain ⟨d₁, hstep, hx⟩ := hwrites.ok d rfl rfl hshort hroom
        exact .added d₁ _ hstep hx
  · obtain ⟨e, d₁, hstep, hx⟩ := addRaw_unnamed body hc
    exact .refused e d₁ hstep hx

theorem outcome_add {R : Type} (t : Template R) (source : RecordSource R) (d : Draft) :
    (Addition.call (.add t source)).Outcome d := by
  by_cases hcount : source.records.length = source.announced
  · obtain ⟨announced, records⟩ := source
    obtain rfl : records.length = announced := hcount
    rcases add_cases t records d with ⟨d₁, hstep, -, -, hx⟩ | ⟨e, d₁, hstep, hx⟩
      | ⟨hk, hc, hroom, hlong⟩
    · exact .added d₁ records.length hstep hx
    · exact .refused e d₁ hstep hx
    · obtain ⟨e, d₁, hstep, hx⟩ := add_overlong t records hk hc hroom hlong
      exact .stranded e d₁ ⟨⟨hk, rfl⟩, hc, hroom, hlong⟩ hstep hx
  · obtain ⟨e, d₁, hfail, hx⟩ := addData_dishonest t d hcount
    exact .refused e d₁ (step_add hfail) hx

/-- **Every addition has one of these outcomes.** -/
theorem outcome (a : Addition) (d : Draft) : a.Outcome d := by
  cases a with
  | raw template count body => exact outcome_raw template count body d
  | call c =>
    cases c with
    | add t source => exact outcome_add t source d
    | define t =>
      rcases define_cases t d with ⟨d₁, hstep, -, -, hx⟩ | ⟨e, d₁, hstep, hx⟩
      · exact .added d₁ 0 hstep hx
      · exact .refused e d₁ hstep hx

/-- **An addition that fails and leaves nothing behind** leaves a draft that no operation tells
from the one before. -/
theorem alike_of_error {a : Addition} {d d' : Draft} {e : CodecError} (hs : ¬ a.Strands d)
    (h : a.step d = (.error e, d')) : Alike d d' := by
  cases a.outcome d with
  | added d₁ records hstep _ => simp [h] at hstep
  | refused e₁ d₁ hstep hx =>
    rw [h] at hstep
    obtain rfl := (Prod.mk.inj hstep).2
    exact hx.alike
  | stranded e₁ d₁ hs' _ _ => exact absurd hs' hs

/-- No addition takes away what was there. -/
theorem length_le_step (a : Addition) (d : Draft) :
    d.buffer.length ≤ (a.step d).2.buffer.length := by
  cases a.outcome d with
  | added d₁ records hstep hx => rw [hstep, hx.length]; exact Nat.le_add_right _ _
  | refused e d₁ hstep hx => rw [hstep, hx.length]; exact Nat.le_add_right _ _
  | stranded e d₁ _ hstep hx => rw [hstep, hx.length]; exact Nat.le_add_right _ _

end Addition

/-! ## 3. Any number of additions -/

theorem length_le_addAll (later : List Addition) (d : Draft) :
    d.buffer.length ≤ (addAll later d).2.buffer.length := by
  induction later generalizing d with
  | nil => exact Nat.le_refl _
  | cons a later ih => exact Nat.le_trans (a.length_le_step d) (ih (a.step d).2)

/-- **Drafts that are alike** are filled alike. -/
theorem addAll_alike (later : List Addition) {d d' : Draft} (h : Alike d d') :
    (addAll later d').1 = (addAll later d).1 ∧
      Alike (addAll later d).2 (addAll later d').2 := by
  induction later generalizing d d' with
  | nil => exact ⟨rfl, h⟩
  | cons a later ih =>
    obtain ⟨r, d₁, d₁', hs, hs', h₁⟩ := a.respects h
    obtain ⟨hsame, hlater⟩ := ih h₁
    simp only [addAll, hs, hs', hsame, true_and]
    exact hlater

theorem finish_alike {d d' : Draft} (h : Alike d d') : d'.finish.1 = d.finish.1 := by
  obtain ⟨r, d₁, d₁', hf, hf', -⟩ := respects_finish h
  rw [hf, hf']

/-- A draft that is too long stays too long. -/
theorem not_finished_of_long {d : Draft} (h : maxLength < d.buffer.length)
    (later : List Addition) (bytes : List UInt8) : (addAll later d).2.finish.1 ≠ .ok bytes := by
  intro hf
  have hgrown := length_le_addAll later d
  have hmax := length_le_of_finish hf
  omega

/-- **A set that fails leaves no trace, unless it is left behind.**  The draft is as it was, and
whatever comes after goes as it would have gone: every addition, the content and the counters, and
the message that is finished.  A set that is left behind does fail, stands in the draft with a
length of zero without being counted, and is the end of the message. -/
theorem failed_set (a : Addition) (d : Draft) :
    (¬ a.Strands d → ∀ e d', a.step d = (.error e, d') → Alike d d' ∧
      ∀ later, (addAll later d').1 = (addAll later d).1 ∧
        Alike (addAll later d).2 (addAll later d').2 ∧
        (addAll later d').2.finish.1 = (addAll later d).2.finish.1) ∧
    (a.Strands d → ∃ e d', a.step d = (.error e, d') ∧
      d'.buffer.toList = d.buffer.toList ++ (a.frame d).opened ∧
      d'.sets = d.sets ∧ d'.records = d.records ∧
      ∀ later bytes, (addAll later d').2.finish.1 ≠ .ok bytes) := by
  constructor
  · intro hs e d' hstep
    have h := a.alike_of_error hs hstep
    refine ⟨h, fun later => ?_⟩
    obtain ⟨hsame, hlater⟩ := addAll_alike later h
    exact ⟨hsame, hlater, finish_alike hlater⟩
  · intro hs
    obtain ⟨e, d', hstep, hx⟩ := hs.step
    exact ⟨e, d', hstep, hx.toList, hx.sets, hx.records, not_finished_of_long (hs.long hx)⟩

/-! ## 4. A record of 65532 octets -/

/-- A template of one field, too wide for a set. -/
def wideTemplate : Template Unit :=
  ⟨300, [⟨⟨1, 65532, 0⟩, by decide, .keep⟩], by decide, by decide⟩

/-- The set of its one record. -/
def wideSet : Addition :=
  .call (.add wideTemplate (.ofList [()]))

theorem strands_wideSet {d : Draft} (he : d.encoding = .full) (hk : d.kind = .data)
    (hroom : d.buffer.length + 65536 ≤ d.buffer.capacity) : wideSet.Strands d := by
  have hlen : (wideSet.frame d).encode.length = 65536 := by
    refine (length_frame_add wideTemplate [()] d.encoding).trans ?_
    rw [he]
    rfl
  refine ⟨⟨hk, rfl⟩, fun hcompact => ?_, by rw [hlen]; exact hroom, by rw [hlen]; decide⟩
  rw [he] at hcompact
  cases hcompact

/-- A message begun in a buffer that it fills to the last octet. -/
theorem begin_wideSet :
    ∃ d x bytes, begin (.ofCapacity 65552) ⟨1, 1⟩ .full .data 0 = (.ok (), d, x) ∧
      wideSet.Strands d ∧ d.finish.1 = .ok bytes := by
  have hcap : Encoding.full.headerLength ≤ (Buffer.ofCapacity 65552).capacity := by
    rw [Buffer.capacity_ofCapacity]
    decide
  obtain ⟨d, hb, hl, hc, he, hk⟩ := begin_ok ⟨1, 1⟩ .data 0 hcap
  have hlen : d.buffer.length = 16 := by
    rw [← Buffer.length_toList, hl, length_headerChunks]
    rfl
  have hdraft : d.buffer.toList = (headerChunks ⟨1, 1⟩ 0 d.kind d.encoding).flatten ++ [] := by
    rw [hl, he, hk, List.append_nil]
  obtain ⟨d₁, hf, -⟩ := finish_ok ⟨1, 1⟩ 0 [] hdraft (by rw [he]; decide)
  exact ⟨d, _, _, hb, strands_wideSet he hk (by rw [hlen, hc, Buffer.capacity_ofCapacity]),
    congrArg Prod.fst hf⟩

/-- **Its set fails and stays**: the message could be finished before, and cannot be any more. -/
theorem wideSet_stays :
    ∃ d x e d' bytes, begin (.ofCapacity 65552) ⟨1, 1⟩ .full .data 0 = (.ok (), d, x) ∧
      wideSet.step d = (.error e, d') ∧ d'.buffer.toList ≠ d.buffer.toList ∧
      d.finish.1 = .ok bytes ∧ ∀ bytes', d'.finish.1 ≠ .ok bytes' := by
  obtain ⟨d, x, bytes, hb, hs, hf⟩ := begin_wideSet
  obtain ⟨e, d', hstep, hx⟩ := hs.step
  have hlong := hs.long hx
  refine ⟨d, x, e, d', bytes, hb, hstep, fun hsame => ?_, hf, not_finished_of_long hlong []⟩
  have hshort := length_le_of_finish hf
  rw [← Buffer.length_toList, hsame, Buffer.length_toList] at hlong
  omega

/-- Four records of one octet do not fit behind a header of five, and three still do; a record that
is too wide for a set does fit, and is the end of its message. -/
theorem failed_set_eachWay :
    (∃ d e d', begin (.ofCapacity 12) ⟨1, 1⟩ .compact .data 0 = (.ok (), d, ⟨1, 2⟩) ∧
      (Addition.raw 256 4 [1, 2, 3, 4]).step d = (.error e, d') ∧
      d'.buffer.toList = d.buffer.toList ∧
      (addAll [.raw 256 3 [1, 2, 3]] d').2.finish.1
        = .ok [0xA2, 0, 1, 0, 12, 0, 3, 0, 7, 1, 2, 3]) ∧
    ∃ d e d', wideSet.Strands d ∧ wideSet.step d = (.error e, d') ∧
      ∀ bytes, d'.finish.1 ≠ .ok bytes := by
  constructor
  · have hcap : Encoding.compact.headerLength ≤ (Buffer.ofCapacity 12).capacity := by
      rw [Buffer.capacity_ofCapacity]
      decide
    obtain ⟨d, hb, -, hc, -, -⟩ := begin_ok ⟨1, 1⟩ .data 0 hcap
    have hs : ¬ (Addition.raw 256 4 [1, 2, 3, 4]).Strands d :=
      Addition.not_strands_of_capacity (by rw [hc, Buffer.capacity_ofCapacity]; decide)
    have hd : d = (begin (.ofCapacity 12) ⟨1, 1⟩ .compact .data 0).2.1 := by rw [hb]
    have hfails : ((Addition.raw 256 4 [1, 2, 3, 4]).step d).1 = .error (.bufferOverflow 13 12) := by
      rw [hd]
      cbv
    have hfinish : (addAll [.raw 256 3 [1, 2, 3]] d).2.finish.1
        = .ok [0xA2, 0, 1, 0, 12, 0, 3, 0, 7, 1, 2, 3] := by
      rw [hd]
      cbv
    obtain ⟨halike, hlater⟩ := (failed_set _ d).1 hs _ _ (Prod.ext hfails rfl)
    obtain ⟨-, -, hsame⟩ := hlater [.raw 256 3 [1, 2, 3]]
    exact ⟨d, _, _, hb, Prod.ext hfails rfl, halike.buffer.toList, hsame.trans hfinish⟩
  · obtain ⟨d, x, bytes, hb, hs, -⟩ := begin_wideSet
    obtain ⟨e, d', hstep, -, -, -, hend⟩ := (failed_set wideSet d).2 hs
    exact ⟨d, e, d', hs, hstep, hend []⟩

end FlowExport.Draft
