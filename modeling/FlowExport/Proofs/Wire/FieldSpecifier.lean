/-
# Reading specifiers back

The writer decides by the enterprise number whether a specifier has four octets more, the reader
by the bit of the id.  On specifiers that obey the rules the two agree, so what was written is read
back and what follows is left (`read_encode`), one after the other (`readMany_flatMap_encode`).
Nothing else is read: what was read obeys the rules and is, written again, what was read from
(`eq_encode_of_read`, `eq_flatMap_encode_of_readMany`).

So a list of specifiers needs no marks between its members: how many there are is enough to find
the end of the last one (`lists_decodable`).
-/
import FlowExport.Proofs.Octets
import FlowExport.Proofs.Wire.Buffer
import FlowExport.Wire.FieldSpecifier
import Mathlib.Data.Nat.Bitwise

namespace FlowExport.FieldSpecifier

/-! ## 1. The rules -/

/-- The enterprise bit is the highest of an id. -/
theorem hasEnterpriseBit_iff (id : UInt16) : hasEnterpriseBit id = true ↔ id &&& 0x8000 ≠ 0 := by
  have hlt : id.toNat < 2 ^ 16 := id.toNat_lt
  have hbit : (id &&& 0x8000).toNat = (id.toNat.testBit 15).toNat * 2 ^ 15 := by
    rw [UInt16.toNat_and]
    exact Nat.and_two_pow id.toNat 15
  have htest : id.toNat.testBit 15 = true ↔ 2 ^ 15 ≤ id.toNat := by
    rw [Nat.testBit_eq_decide_div_mod_eq, decide_eq_true_iff]
    omega
  rw [hasEnterpriseBit, decide_eq_true_iff, UInt16.le_iff_toNat_le, ne_eq, ← UInt16.toNat_inj,
    hbit]
  refine htest.symm.trans ?_
  cases id.toNat.testBit 15 <;> simp

/-- **The rules, spelled out**: neither width that is refused, and the bit with a number only. -/
theorem valid_iff {s : FieldSpecifier} :
    s.Valid ↔ s.size ≠ 0 ∧ s.size ≠ 65535 ∧ (s.id &&& 0x8000 ≠ 0 ↔ s.enterprise ≠ 0) := by
  rw [Valid, hasEnterpriseBit_iff]
  rfl

theorem map_eq_ok {ε α β : Type} {f : α → β} {x : Except ε α} {b : β}
    (h : x.map f = .ok b) : ∃ a, x = .ok a ∧ f a = b := by
  cases x with
  | error e => simp [Except.map] at h
  | ok a => exact ⟨a, rfl, by simpa [Except.map] using h⟩

theorem isEnterprise_eq_of_valid {s : FieldSpecifier} (h : s.Valid) :
    s.isEnterprise = hasEnterpriseBit s.id := by
  have hiff := h.2.2
  cases hb : hasEnterpriseBit s.id with
  | false =>
    by_cases he : s.enterprise = 0
    · simp [isEnterprise, he]
    · exact absurd (hb.symm.trans (hiff.mpr he)) (by simp)
  | true => simpa [isEnterprise] using hiff.mp hb

/-! ## 2. Reading what was written -/

theorem encode_eq (s : FieldSpecifier) :
    s.encode = Octets.ofNat 2 s.id.toNat ++ Octets.ofNat 2 s.size.toNat
      ++ if s.isEnterprise then Octets.ofNat 4 s.enterprise.toNat else [] := by
  unfold encode chunks
  split <;> simp

/-- **A specifier that obeys the rules is read back**, and what follows it is left. -/
theorem read_encode {s : FieldSpecifier} (h : s.Valid) (rest : List UInt8) :
    read (s.encode ++ rest) = .ok (s, rest) := by
  obtain ⟨i₁, i₀, hi, hid⟩ := Octets.ofNat_two s.id.toNat
  obtain ⟨s₁, s₀, hs, hsize⟩ := Octets.ofNat_two s.size.toNat
  obtain ⟨e₃, e₂, e₁, e₀, he, hent⟩ := Octets.ofNat_four s.enterprise.toNat
  rw [UInt16.ofNat_toNat] at hid hsize
  rw [UInt32.ofNat_toNat] at hent
  have hmake : make s.id s.size s.enterprise = .ok s := make_eq_ok_iff.mpr ⟨rfl, h⟩
  have hbit := isEnterprise_eq_of_valid h
  rw [encode_eq, hi, hs, he, hbit]
  cases hb : hasEnterpriseBit s.id with
  | true =>
    simp [read, hid, hsize, hb, hent, hmake, Except.map]
  | false =>
    have hzero : s.enterprise = 0 := by
      rw [hb] at hbit
      simpa [isEnterprise] using hbit
    rw [hzero] at hmake
    simp [read, hid, hsize, hb, hmake, Except.map]

/-- **Specifiers are read back one after the other.** -/
theorem readMany_flatMap_encode {specifiers : List FieldSpecifier}
    (h : ∀ s ∈ specifiers, s.Valid) (rest : List UInt8) :
    readMany specifiers.length (specifiers.flatMap encode ++ rest) = .ok (specifiers, rest) := by
  induction specifiers with
  | nil => rfl
  | cons s specifiers ih =>
    rw [List.length_cons, List.flatMap_cons, List.append_assoc]
    simp only [readMany, bind, Except.bind, read_encode (h s (by simp)),
      ih (fun s' hs' => h s' (by simp [hs']))]
    rfl

theorem readAll_flatMap_encode {specifiers : List FieldSpecifier}
    (h : ∀ s ∈ specifiers, s.Valid) : readAll (specifiers.flatMap encode) = specifiers := by
  induction specifiers with
  | nil =>
    rw [List.flatMap_nil, readAll]
    rfl
  | cons s specifiers ih =>
    rw [List.flatMap_cons, readAll]
    split
    · rename_i s' rest hr
      rw [read_encode (h s (by simp))] at hr
      simp only [Except.ok.injEq, Prod.mk.injEq] at hr
      obtain ⟨rfl, rfl⟩ := hr
      rw [ih fun s' hs' => h s' (by simp [hs'])]
    · rename_i e hr
      rw [read_encode (h s (by simp))] at hr
      simp at hr

/-! ## 3. Writing what was read -/

/-- **Only specifiers that obey the rules are read**, from the octets they are written as. -/
theorem eq_encode_of_read {bytes rest : List UInt8} {s : FieldSpecifier}
    (h : read bytes = .ok (s, rest)) : s.Valid ∧ bytes = s.encode ++ rest := by
  unfold read at h
  split at h
  · rename_i i₁ i₀ s₁ s₀ tail
    simp only at h
    split at h
    · rename_i hb
      split at h
      · rename_i e₃ e₂ e₁ e₀ tail'
        obtain ⟨s', hm, hs'⟩ := map_eq_ok h
        obtain ⟨rfl, hv⟩ := make_eq_ok_iff.mp hm
        simp only [Prod.mk.injEq] at hs'
        obtain ⟨rfl, rfl⟩ := hs'
        refine ⟨hv, ?_⟩
        rw [encode_eq, isEnterprise_eq_of_valid hv]
        simp [hb, Octets.ofNat_word16, Octets.ofNat_word32]
      · simp at h
    · rename_i hb
      obtain ⟨s', hm, hs'⟩ := map_eq_ok h
      obtain ⟨rfl, hv⟩ := make_eq_ok_iff.mp hm
      simp only [Prod.mk.injEq] at hs'
      obtain ⟨rfl, rfl⟩ := hs'
      refine ⟨hv, ?_⟩
      rw [encode_eq, isEnterprise_eq_of_valid hv]
      simp [hb, Octets.ofNat_word16]
  · simp at h

theorem eq_flatMap_encode_of_readMany {count : Nat} {bytes rest : List UInt8}
    {specifiers : List FieldSpecifier} (h : readMany count bytes = .ok (specifiers, rest)) :
    specifiers.length = count ∧ (∀ s ∈ specifiers, s.Valid) ∧
      bytes = specifiers.flatMap encode ++ rest := by
  induction count generalizing bytes specifiers with
  | zero =>
    simp only [readMany, Except.ok.injEq, Prod.mk.injEq] at h
    obtain ⟨rfl, rfl⟩ := h
    simp
  | succ count ih =>
    simp only [readMany, bind, Except.bind] at h
    split at h
    · simp at h
    · rename_i first hfirst
      split at h
      · simp at h
      · rename_i others hothers
        simp only [pure, Except.pure, Except.ok.injEq, Prod.mk.injEq] at h
        obtain ⟨rfl, rfl⟩ := h
        obtain ⟨hv, hb⟩ := eq_encode_of_read hfirst
        obtain ⟨hl, hvs, hbs⟩ := ih hothers
        refine ⟨by rw [List.length_cons, hl], ?_, ?_⟩
        · intro s hs
          rcases List.mem_cons.mp hs with rfl | hs
          · exact hv
          · exact hvs s hs
        · rw [hb, hbs, List.flatMap_cons, List.append_assoc]

/-! ## 4. Lists of specifiers -/

/-- **Writes specifiers in order**, up to the first that does not fit. -/
def writeMany : List FieldSpecifier → Buffer → Except CodecError Unit × Buffer
  | [], b => (.ok (), b)
  | s :: specifiers, b =>
    match s.write b with
    | (.ok (), b) => writeMany specifiers b
    | (.error e, b) => (.error e, b)

/-- Writing specifiers is appending their parts. -/
theorem writeMany_eq_appendAll (specifiers : List FieldSpecifier) (b : Buffer) :
    writeMany specifiers b = b.appendAll (specifiers.flatMap (·.chunks)) := by
  induction specifiers generalizing b with
  | nil => rfl
  | cons s specifiers ih =>
    rw [writeMany, write, List.flatMap_cons, Buffer.appendAll_append]
    rcases b.appendAll s.chunks with ⟨_ | ⟨⟩, b₁⟩
    · rfl
    · exact ih b₁

theorem flatten_chunks (specifiers : List FieldSpecifier) :
    (specifiers.flatMap (·.chunks)).flatten = specifiers.flatMap (·.encode) := by
  induction specifiers with
  | nil => rfl
  | cons s specifiers ih =>
    rw [List.flatMap_cons, List.flatten_append, ih, List.flatMap_cons, encode]

theorem length_flatMap_encode (specifiers : List FieldSpecifier) :
    (specifiers.flatMap (·.encode)).length = (specifiers.map (·.wireLength)).sum := by
  rw [List.length_flatMap]
  exact congrArg List.sum (List.map_congr_left fun s _ => s.length_encode)

/-- **Specifiers that fit are written** as their octets, one behind the other. -/
theorem writeMany_ok (specifiers : List FieldSpecifier) {b : Buffer}
    (h : b.length + (specifiers.flatMap (·.encode)).length ≤ b.capacity) :
    ∃ b', writeMany specifiers b = (.ok (), b') ∧
      b'.toList = b.toList ++ specifiers.flatMap (·.encode) := by
  rw [← flatten_chunks] at h ⊢
  obtain ⟨b', hb, hl, -⟩ := Buffer.appendAll_ok (specifiers.flatMap (·.chunks)) h
  exact ⟨b', (writeMany_eq_appendAll specifiers b).trans hb, hl⟩

/-- **Lists of specifiers are uniquely decodable.**  Specifiers that were made are written, wherever
there is room, as octets of the lengths they announce, added up; whatever follows these octets,
reading so many specifiers gives back the list and leaves what follows.  Conversely, of any octets
from which so many specifiers can be read, what is consumed is what the specifiers are written as,
and each of them obeys the rules. -/
theorem lists_decodable :
    (∀ specifiers : List FieldSpecifier,
      (∀ s ∈ specifiers, ∃ id size enterprise, make id size enterprise = .ok s) →
      ∃ octets : List UInt8, octets.length = (specifiers.map (·.wireLength)).sum ∧
        (∀ b : Buffer, b.length + octets.length ≤ b.capacity →
          ∃ b', writeMany specifiers b = (.ok (), b') ∧ b'.toList = b.toList ++ octets) ∧
        ∀ tail, readMany specifiers.length (octets ++ tail) = .ok (specifiers, tail)) ∧
    ∀ (count : Nat) (bytes rest : List UInt8) (specifiers : List FieldSpecifier),
      readMany count bytes = .ok (specifiers, rest) →
      specifiers.length = count ∧
      (∀ s ∈ specifiers,
        s.size ≠ 0 ∧ s.size ≠ 65535 ∧ (s.id &&& 0x8000 ≠ 0 ↔ s.enterprise ≠ 0)) ∧
      ∃ consumed, bytes = consumed ++ rest ∧
        ∀ b : Buffer, b.length + consumed.length ≤ b.capacity →
          ∃ b', writeMany specifiers b = (.ok (), b') ∧ b'.toList = b.toList ++ consumed := by
  constructor
  · intro specifiers hmade
    have hvalid : ∀ s ∈ specifiers, s.Valid := by
      intro s hs
      obtain ⟨id, size, enterprise, hmake⟩ := hmade s hs
      exact (make_eq_ok_iff.mp hmake).2
    refine ⟨specifiers.flatMap (·.encode), length_flatMap_encode specifiers, ?_,
      readMany_flatMap_encode hvalid⟩
    intro b hroom
    exact writeMany_ok specifiers hroom
  · intro count bytes rest specifiers hread
    obtain ⟨hlength, hvalid, hbytes⟩ := eq_flatMap_encode_of_readMany hread
    refine ⟨hlength, ?_, specifiers.flatMap (·.encode), hbytes, ?_⟩
    · intro s hs
      exact valid_iff.mp (hvalid s hs)
    · intro b hroom
      exact writeMany_ok specifiers hroom

/-- A specifier of either length: behind four octets come eight, and then what is left. -/
theorem lists_decodable_bothLengths :
    let specifiers : List FieldSpecifier := [⟨1, 4, 0⟩, ⟨32771, 16, meshEnterprise⟩]
    let octets : List UInt8 := [0, 1, 0, 4, 128, 3, 0, 16, 0, 0, 81, 27]
    (∀ s ∈ specifiers, ∃ id size enterprise, make id size enterprise = .ok s) ∧
      (specifiers.map (·.wireLength)).sum = octets.length ∧
      (∃ b', writeMany specifiers (.ofCapacity 12) = (.ok (), b') ∧ b'.toList = octets) ∧
      ∀ tail, readMany 2 (octets ++ tail) = .ok (specifiers, tail) := by
  intro specifiers octets
  have hmade : ∀ s ∈ specifiers, ∃ id size enterprise, make id size enterprise = .ok s :=
    fun s hs => ⟨s.id, s.size, s.enterprise, by revert s; decide⟩
  have hread : readMany 2 octets = .ok (specifiers, []) := by decide
  obtain ⟨written, hlength, hwrite, hback⟩ := lists_decodable.1 specifiers hmade
  obtain ⟨-, -, consumed, hsplit, hagain⟩ := lists_decodable.2 2 octets [] specifiers hread
  rw [List.append_nil] at hsplit
  subst hsplit
  have hroom : ∀ bytes : List UInt8, bytes.length = 12 →
      (Buffer.ofCapacity 12).length + bytes.length ≤ (Buffer.ofCapacity 12).capacity := by
    intro bytes hbytes
    rw [hbytes, Buffer.capacity_ofCapacity]
    decide
  obtain ⟨b', hb, hl⟩ := hagain _ (hroom octets rfl)
  obtain ⟨b'', hb'', hl''⟩ := hwrite _ (hroom written hlength)
  rw [hb] at hb''
  obtain rfl : b' = b'' := congrArg Prod.snd hb''
  have hwritten : written = octets := List.append_cancel_left (hl''.symm.trans hl)
  exact ⟨hmade, by decide, ⟨b', hb, by rw [hl]; rfl⟩, fun tail => hwritten ▸ hback tail⟩

end FlowExport.FieldSpecifier
