/-
# Sizes known in advance

How long a message will be is computed twice in the program: by adding up parts
(`templateMessageLength`, `dataMessageLength`), which is what a configuration is checked with, and
by writing it.  The two agree, and the computed length decides whether there will be a message at
all: of any sets of one kind, in a buffer of any capacity, a message is written exactly where its
computed length is within the capacity and what a header can announce, every source hands out as
many records as it announces, and, in the compact encoding, every id and every count fits its octet
(`compose_iff_sized`).

A source that announces another number fails wherever it stands in the message, so the three
conditions need no order; that its announcement is what the length is computed from does no harm.
-/
import FlowExport.Proofs.Wire.Composition
import FlowExport.Proofs.Wire.Template

namespace FlowExport.Draft

/-! ## 1. The sets of a message -/

/-- **What a message is to hold**: the definitions of templates, or the records of sources. -/
inductive Contents : Type 1 where
  | definitions (sets : List ((R : Type) × Template R))
  | records (sets : List ((R : Type) × Template R × RecordSource R))

namespace Contents

/-- The kind of the message. -/
def kind : Contents → Kind
  | definitions _ => .template
  | records _ => .data

/-- The calls that add the sets, in order. -/
def calls : Contents → List Call
  | definitions sets => sets.map fun set => .define set.2
  | records sets => sets.map fun set => .add set.2.1 set.2.2

/-- The number of sets. -/
def count : Contents → Nat
  | definitions sets => sets.length
  | records sets => sets.length

/-- The number of records announced. -/
def announced : Contents → Nat
  | definitions _ => 0
  | records sets => (sets.map fun set => set.2.2.announced).sum

/-- **The length of the message**, computed from its parts. -/
def length (encoding : Encoding) : Contents → Nat
  | definitions sets =>
    encoding.templateMessageLength (sets.map fun set => set.2.specifiersLength)
  | records sets =>
    encoding.dataMessageLength (sets.map fun set => (set.2.2.announced, set.2.1.recordWidth))

/-- Every source hands out as many records as it announces. -/
def Honest : Contents → Prop
  | definitions _ => True
  | records sets => ∀ set ∈ sets, set.2.2.announced = set.2.2.records.length

/-- Every id and every count fits in the one octet that a compact set has for it. -/
def FitsOctets : Contents → Prop
  | definitions sets => ∀ set ∈ sets, set.2.id ≤ maxCompactId
  | records sets =>
    ∀ set ∈ sets, set.2.1.id ≤ maxCompactId ∧ set.2.2.announced ≤ maxCompactCount

variable {c : Contents} {encoding : Encoding}

theorem kind_of_mem_calls {call : Call} (h : call ∈ c.calls) : call.kind = c.kind := by
  cases c with
  | definitions sets =>
    obtain ⟨set, -, rfl⟩ := List.mem_map.mp h
    rfl
  | records sets =>
    obtain ⟨set, -, rfl⟩ := List.mem_map.mp h
    rfl

theorem honest_iff : c.Honest ↔ ∀ call ∈ c.calls, call.IsHonest := by
  cases c with
  | definitions sets => exact ⟨fun _ => List.forall_mem_map.mpr fun _ _ => trivial, fun _ => trivial⟩
  | records sets =>
    rw [calls, List.forall_mem_map]
    exact Iff.rfl

/-- **What can be named**: the bounds that a template keeps by itself are left out. -/
theorem carries_iff (h : c.Honest) :
    (∀ call ∈ c.calls, encoding.Carries call.template call.count)
      ↔ (encoding = .compact → c.FitsOctets) := by
  cases c with
  | definitions sets =>
    rw [calls, List.forall_mem_map]
    constructor
    · intro hall he set hset
      exact (hall set hset he).2.2
    · intro hfits set hset he
      exact ⟨set.2.length_le, set.2.id_ge, hfits he set hset⟩
  | records sets =>
    have hcount : ∀ set ∈ sets, (Call.add set.2.1 set.2.2).count = set.2.2.announced :=
      fun set hset => (h set hset).symm
    rw [calls, List.forall_mem_map]
    constructor
    · intro hall he set hset
      obtain ⟨hmost, -, hid⟩ := hall set hset he
      rw [hcount set hset] at hmost
      exact ⟨hid, hmost⟩
    · intro hfits set hset he
      obtain ⟨hid, hmost⟩ := hfits he set hset
      rw [← hcount set hset] at hmost
      exact ⟨hmost, set.2.1.id_ge, hid⟩

/-- **The computed length is that of header and frames.** -/
theorem length_eq (h : c.Honest) (encoding : Encoding) :
    encoding.headerLength + ((c.calls.map (·.frame encoding)).flatMap Frame.encode).length
      = c.length encoding := by
  rw [List.length_flatMap, List.map_map]
  cases c with
  | definitions sets =>
    rw [calls, List.map_map, length, Encoding.templateMessageLength, total_eq_sum, List.map_map]
    refine congrArg (fun lengths : List Nat => _ + lengths.sum) (List.map_congr_left ?_)
    intro set _
    change ((Call.define set.2).frame encoding).encode.length = _
    rw [Call.frame, length_encode_ofSet]
    exact congrArg _ set.2.length_flatMap_specifiers
  | records sets =>
    rw [calls, List.map_map, length, Encoding.dataMessageLength, total_eq_sum, List.map_map]
    refine congrArg (fun lengths : List Nat => _ + lengths.sum) (List.map_congr_left ?_)
    intro set hset
    change ((Call.add set.2.1 set.2.2).frame encoding).encode.length = _
    have hcount : set.2.2.announced = set.2.2.records.length := h set hset
    rw [Call.frame, length_encode_ofSet, Call.body, length_flatMap_encodeRecord, ← hcount]
    rfl

/-- Honest contents that can be named are written call by call. -/
theorem writes (h : c.Honest) (hfits : encoding = .compact → c.FitsOctets) :
    ∀ call ∈ c.calls, Writes encoding c.kind call.step () (call.frame encoding)
      (recordsOf call.kind call.count) := by
  intro call hcall
  rw [← kind_of_mem_calls hcall]
  exact Call.writes ((carries_iff h).mpr hfits call hcall) (honest_iff.mp h call hcall)

end Contents

/-! ## 2. Whole messages -/

section Compose

variable {buffer : Buffer} {x : Exporter} {encoding : Encoding} {kind : Kind} {time : UInt32}

/-- Only honest contents that can be named are composed, and only where they fit. -/
theorem sized_of_compose {c : Contents} {bytes : List UInt8}
    (h : (compose buffer x encoding c.kind time (fillAll (c.calls.map Call.step))).1
      = .ok bytes) :
    c.Honest ∧ (encoding = .compact → c.FitsOctets) ∧ bytes.length = c.length encoding ∧
      c.length encoding ≤ buffer.capacity ∧ c.length encoding ≤ maxLength := by
  obtain ⟨⟨rfl, hroom, hmax⟩, hsteps⟩ :=
    compose_eq_ok (fun call _ => appends_call encoding c.kind call) h
  have hcalls : ∀ call ∈ c.calls, call.IsHonest ∧ encoding.Carries call.template call.count := by
    intro call hcall
    obtain ⟨d₁, d₂, he, -, hstep⟩ := hsteps call hcall
    have hcarries := (Call.step_eq_ok hstep).2.1
    rw [he] at hcarries
    exact ⟨Call.isHonest_of_step hstep, hcarries⟩
  have hhonest : c.Honest := Contents.honest_iff.mpr fun call hcall => (hcalls call hcall).1
  have hfits : encoding = .compact → c.FitsOctets :=
    (Contents.carries_iff hhonest).mp fun call hcall => (hcalls call hcall).2
  rw [Contents.length_eq hhonest] at hroom hmax
  refine ⟨hhonest, hfits, ?_, hroom, hmax⟩
  rw [Exporter.length_message, Contents.length_eq hhonest]

/-- **Honest contents that can be named are composed exactly where they fit.** -/
theorem exists_compose_iff {c : Contents} (hhonest : c.Honest)
    (hfits : encoding = .compact → c.FitsOctets) (hmax : c.length encoding ≤ maxLength) :
    (∃ bytes, (compose buffer x encoding c.kind time (fillAll (c.calls.map Call.step))).1
      = .ok bytes) ↔ c.length encoding ≤ buffer.capacity := by
  constructor
  · rintro ⟨bytes, h⟩
    obtain ⟨-, -, -, hroom, -⟩ := sized_of_compose h
    exact hroom
  · intro hroom
    rw [← Contents.length_eq hhonest] at hroom hmax
    obtain ⟨buffer', hok, -⟩ :=
      compose_ok (Contents.writes hhonest hfits) buffer x time hroom hmax
    exact ⟨_, congrArg Prod.fst hok⟩

end Compose

end FlowExport.Draft
