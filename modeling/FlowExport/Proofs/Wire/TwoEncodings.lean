/-
# The two encodings agree

The same sets can reach a collector on two ways.  They are written in full where they arise, or they
are written in the compact encoding, parsed by a gateway and expanded.  The two ways share no step:
the one renders elements into set headers of the full encoding, the other cuts octets by lengths
found in them.

Both put the same frames into a full message (`CompactMessage.expandedFrame_setOf`), and both get
done exactly where these fit.  So they agree on whether there is a message, on every octet of it,
and on the number that is claimed (`CompactMessage.expand_agrees`).
-/
import FlowExport.Proofs.Wire.Expansion
import FlowExport.Proofs.Wire.RoundTrip
import Mathlib

namespace FlowExport

open Draft (Call compose fillAll octetsOf)

namespace CompactMessage

/-! ## 1. The frames of a full message -/

/-- **The set that a call writes is expanded into the frame that the call writes in full.** -/
theorem expandedFrame_setOf {c : Call} (hc : Encoding.compact.Carries c.template c.count)
    (hfields : c.HasFields) : (setOf c).expandedFrame c.kind none = c.frame .full := by
  have hcount := toNat_count_setOf hc
  have hcheck := check_setOf hc hfields
  cases c with
  | define t =>
    change Frame.ofSet .full .template t.id (_ + 0) (_ ++ []) = _
    rw [hcount, Nat.add_zero, List.append_nil]
    rfl
  | add t source =>
    have hbody := CompactSet.flatten_records (CompactSet.isEven_of_check hcheck)
    change Frame.ofSet .full .data t.id (_ + 0) (List.flatMap (CompactSet.tagged none) _) = _
    rw [hcount, Nat.add_zero, CompactSet.flatMap_tagged_none, hbody]
    rfl

theorem expandedFrames {calls : List Call} {kind : Kind} {m : CompactMessage}
    (hsets : m.sets = calls.map setOf)
    (hall : ∀ c ∈ calls, c.kind = kind ∧ Encoding.compact.Carries c.template c.count ∧
      c.HasFields) :
    (m.sets.map (·.expandedFrame kind none)).flatMap Frame.encode = octetsOf .full calls := by
  have hframes : m.sets.map (·.expandedFrame kind none) = calls.map (·.frame .full) := by
    rw [hsets, List.map_map]
    refine List.map_congr_left fun c hc => ?_
    obtain ⟨rfl, hcarries, hfields⟩ := hall c hc
    exact expandedFrame_setOf hcarries hfields
  rw [hframes, octetsOf]

/-! ## 2. Whole messages -/

/-- **Expanding agrees with writing in full.**  Sets that make up a compact message are expanded,
in a buffer of any capacity, exactly where they can be written in full, to the same octets, and
with the same number claimed. -/
theorem expand_agrees {calls : List Call} {kind : Kind} {buffer buffer' : Buffer}
    {x x' : Exporter} {time : UInt32} {bytes : List UInt8}
    (hfields : ∀ c ∈ calls, c.HasFields) (hhonest : ∀ c ∈ calls, c.IsHonest)
    (h : compose buffer x .compact kind time (fillAll (calls.map Call.step))
      = (.ok bytes, buffer', x')) :
    ∃ m, parse bytes = .ok m ∧ ∀ (b₁ b₂ : Buffer) (y : Exporter) (now : UInt32),
      b₁.capacity = b₂.capacity →
      (∀ result, (m.expand b₁ y now none).1 = .ok result ↔
        (compose b₂ y .full kind now (fillAll (calls.map Call.step))).1 = .ok result) ∧
      (m.expand b₁ y now none).2.2
        = (compose b₂ y .full kind now (fillAll (calls.map Call.step))).2.2 := by
  have hok : (compose buffer x .compact kind time (fillAll (calls.map Call.step))).1
      = .ok bytes := by rw [h]
  obtain ⟨⟨rfl, -, hmax⟩, hsteps⟩ := Draft.compose_eq_ok
    (fun c _ => Draft.appends_call .compact kind c) hok
  have hall : ∀ c ∈ calls, c.kind = kind ∧ Encoding.compact.Carries c.template c.count ∧
      c.HasFields := by
    intro c hc
    obtain ⟨d₁, d₂, he, hk, hstep⟩ := hsteps c hc
    obtain ⟨hkind, hcarries, -⟩ := Call.step_eq_ok hstep
    exact ⟨hkind.trans hk, he ▸ hcarries, hfields c hc⟩
  obtain ⟨m, hparse, hheader, hsets⟩ := parse_octetsOf x kind time hmax hall
  have hkind : m.kind = kind := by rw [CompactMessage.kind, hheader]
  have hframes := expandedFrames hsets hall
  refine ⟨m, hparse, fun b₁ b₂ y now hcap => ⟨fun result => ?_, ?_⟩⟩
  · have hwrites : ∀ c ∈ calls, Draft.Writes .full kind c.step () (c.frame .full)
        (Draft.recordsOf kind c.count) := by
      intro c hc
      obtain ⟨rfl, -, -⟩ := hall c hc
      exact Call.writes (CompactSet.carries_full c.template c.count) (hhonest c hc)
    have hlen := expandedLength_eq hparse none
    rw [hkind, hframes] at hlen
    rw [expand_eq_ok_iff hparse, Draft.compose_eq_ok_iff hwrites
      (fun c _ => Draft.appends_call .full kind c), hkind, hframes, hlen, hcap]
    exact Iff.rfl
  · rw [expand, Draft.exporter_compose, Draft.exporter_compose, hcap]

/-- Two records of two fields, and a set without records. -/
def twoSets : List Call :=
  [.add twoFields (.ofList [5, 7]), .add twoFields (.ofList [])]

/-- The two sets are expanded to what they are in full. -/
theorem expand_agrees_twoSets :
    (∀ c ∈ twoSets, c.HasFields) ∧ (∀ c ∈ twoSets, c.IsHonest) ∧
      ∃ bytes buffer' x' m, compose (.ofCapacity 40) {} .compact .data 0
          (fillAll (twoSets.map Call.step)) = (.ok bytes, buffer', x') ∧
        parse bytes = .ok m ∧ (m.expand (.ofCapacity 40) ⟨7, 9⟩ 3 none).1
          = .ok [0, 10, 0, 30, 0, 0, 0, 3, 0, 0, 0, 9, 0, 0, 0, 7,
            1, 0, 0, 10, 0, 5, 0, 0, 7, 0, 1, 0, 0, 4] := by
  have hfields : ∀ c ∈ twoSets, c.HasFields := by
    simp [twoSets, Draft.Call.HasFields, twoFields]
  have hhonest : ∀ c ∈ twoSets, c.IsHonest := by
    simp [twoSets, Draft.Call.IsHonest, RecordSource.ofList]
  have hcompact : (compose (.ofCapacity 40) {} .compact .data 0
      (fillAll (twoSets.map Call.step))).1
        = .ok [0xA2, 0, 1, 0, 19, 0, 2, 0, 10, 0, 5, 0, 0, 7, 0, 0, 0, 0, 4] := by cbv
  have hfull : (compose (.ofCapacity 40) ⟨7, 9⟩ .full .data 3 (fillAll (twoSets.map Call.step))).1
      = .ok [0, 10, 0, 30, 0, 0, 0, 3, 0, 0, 0, 9, 0, 0, 0, 7,
        1, 0, 0, 10, 0, 5, 0, 0, 7, 0, 1, 0, 0, 4] := by cbv
  rcases hc : compose (.ofCapacity 40) {} .compact .data 0 (fillAll (twoSets.map Call.step))
    with ⟨outcome, buffer', x'⟩
  rw [hc] at hcompact
  obtain rfl : outcome = _ := hcompact
  obtain ⟨m, hparse, hagree⟩ := expand_agrees hfields hhonest hc
  obtain ⟨hresult, -⟩ := hagree (.ofCapacity 40) (.ofCapacity 40) ⟨7, 9⟩ 3 rfl
  exact ⟨hfields, hhonest, _, _, _, m, rfl, hparse, (hresult _).mpr hfull⟩

end CompactMessage

end FlowExport
