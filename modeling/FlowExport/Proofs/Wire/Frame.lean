/-
# Frames laid end to end

`Frame.walk` accepts exactly the concatenations of frames whose lengths can be announced and which
all pass the rule, and it returns what the rule makes of them, in order (`walk_eq_ok_iff`).  What
has been walked is cut into the same frames by `Frame.split`, which checks nothing
(`split_flatMap_encode`).  Both rest on one frame: reading undoes writing whatever follows
(`read_encode`), and reads nothing else (`eq_encode_of_read`).
-/
import FlowExport.Proofs.Octets
import FlowExport.Wire.CompactMessage

namespace FlowExport.Frame

/-! ## 1. One frame -/

@[simp] theorem length_encode (f : Frame) : f.encode.length = headerLength + f.body.length := by
  simp only [encode, List.length_cons, List.length_append, Octets.length_ofNat, headerLength]

/-- **Reading undoes writing**, whatever follows. -/
theorem read_encode (name : UInt8 × UInt8 → UInt16) {f : Frame} (rest : List UInt8)
    (h : f.encode.length ≤ maxLength) : read name (f.encode ++ rest) = .ok (f, rest) := by
  obtain ⟨hi, lo, hn, hw⟩ := Octets.ofNat_two (headerLength + f.body.length)
  have he : f.encode ++ rest = f.lead.1 :: f.lead.2 :: hi :: lo :: (f.body ++ rest) := by
    rw [encode, hn]
    rfl
  rw [length_encode, headerLength, maxLength] at h
  have hl : (Octets.word16 hi lo).toNat = headerLength + f.body.length := by
    rw [hw, UInt16.toNat_ofNat', headerLength]
    omega
  have hlong : (f.encode ++ rest).length = headerLength + f.body.length + rest.length := by
    rw [List.length_append, length_encode]
  rw [he] at hlong ⊢
  simp only [read, hl, hlong]
  rw [if_neg (by omega), Nat.add_sub_cancel_left, List.take_left, List.drop_left]

/-- **Nothing but a frame is read**, and what follows it is left. -/
theorem eq_encode_of_read {name : UInt8 × UInt8 → UInt16} {bytes rest : List UInt8} {f : Frame}
    (h : read name bytes = .ok (f, rest)) :
    bytes = f.encode ++ rest ∧ f.encode.length ≤ maxLength := by
  unfold read at h
  split at h
  · rename_i a b hi lo tail
    simp only at h
    split at h
    · simp at h
    · rename_i hr
      simp only [List.length_cons, not_or, Nat.not_lt, headerLength] at hr
      simp only [Except.ok.injEq, Prod.mk.injEq] at h
      obtain ⟨rfl, rfl⟩ := h
      have hb : (tail.take ((Octets.word16 hi lo).toNat - headerLength)).length
          = (Octets.word16 hi lo).toNat - headerLength := by
        rw [List.length_take, headerLength]
        omega
      have hsum : headerLength + (tail.take ((Octets.word16 hi lo).toNat - headerLength)).length
          = (Octets.word16 hi lo).toNat := by
        rw [hb, headerLength]
        omega
      refine ⟨?_, ?_⟩
      · rw [encode]
        simp only [hsum, Octets.ofNat_word16, List.cons_append, List.nil_append,
          List.take_append_drop]
      · rw [length_encode, hsum, maxLength]
        have := (Octets.word16 hi lo).toNat_lt
        omega
  · simp at h

/-! ## 2. Many frames -/

theorem split_encode_append {f : Frame} (rest : List UInt8) (h : f.encode.length ≤ maxLength) :
    split (f.encode ++ rest) = f :: split rest := by
  obtain ⟨hi, lo, hn, hw⟩ := Octets.ofNat_two (headerLength + f.body.length)
  have he : f.encode ++ rest = f.lead.1 :: f.lead.2 :: hi :: lo :: (f.body ++ rest) := by
    rw [encode, hn]
    rfl
  rw [length_encode, headerLength, maxLength] at h
  have hl : (Octets.word16 hi lo).toNat - headerLength = f.body.length := by
    rw [hw, UInt16.toNat_ofNat', headerLength]
    omega
  rw [he, split, hl, List.take_left, List.drop_left]

/-- **What was laid end to end is cut where it joins.** -/
theorem split_flatMap_encode {frames : List Frame}
    (h : ∀ f ∈ frames, f.encode.length ≤ maxLength) : split (frames.flatMap encode) = frames := by
  induction frames with
  | nil => simp [split]
  | cons f frames ih =>
    rw [List.flatMap_cons, split_encode_append _ (h f (by simp)),
      ih (fun f' hf' => h f' (by simp [hf']))]

section Walk

variable {α : Type} {name : UInt8 × UInt8 → UInt16} {rule : Frame → Except CodecError α}

theorem walk_nil : walk name rule [] = .ok [] := by
  rw [walk]
  rfl

/-- One turn of `walk`. -/
theorem walk_of_ne_nil {bytes : List UInt8} (h : bytes ≠ []) :
    walk name rule bytes
      = match read name bytes with
        | .error e => .error e
        | .ok (frame, rest) =>
          match rule frame with
          | .error e => .error e
          | .ok value => (walk name rule rest).map (value :: ·) := by
  rw [walk, if_neg (by simpa using h)]
  split
  · rename_i e he
    rw [he]
  · rename_i frame rest he
    rw [he]
    cases hv : rule frame with
    | error e => simp only [hv, bind, Except.bind]
    | ok value =>
      cases hvs : walk name rule rest with
      | error e => simp only [hv, hvs, bind, Except.bind, Except.map]
      | ok values => simp only [hv, hvs, bind, Except.bind, pure, Except.pure, Except.map]

/-- One turn of `walk` on a frame that passes the rule. -/
theorem walk_encode_append {f : Frame} {v : α} {rest : List UInt8}
    (h : f.encode.length ≤ maxLength) (hv : rule f = .ok v) :
    walk name rule (f.encode ++ rest) = (walk name rule rest).map (v :: ·) := by
  rw [walk_of_ne_nil (by simp [encode]), read_encode name _ h]
  simp only [hv]

theorem walk_flatMap_encode {frames : List Frame} {values : List α}
    (h : ∀ f ∈ frames, f.encode.length ≤ maxLength) (hm : frames.map rule = values.map .ok) :
    walk name rule (frames.flatMap encode) = .ok values := by
  induction frames generalizing values with
  | nil =>
    have hv : values = [] := by simpa using hm.symm
    rw [hv, List.flatMap_nil, walk_nil]
  | cons f frames ih =>
    cases values with
    | nil => simp at hm
    | cons v values =>
      rw [List.map_cons, List.map_cons, List.cons.injEq] at hm
      rw [List.flatMap_cons, walk_encode_append (h f (by simp)) hm.1,
        ih (fun f' hf' => h f' (by simp [hf'])) hm.2]
      rfl

theorem frames_of_walk {bytes : List UInt8} {values : List α}
    (h : walk name rule bytes = .ok values) :
    ∃ frames : List Frame, bytes = frames.flatMap encode ∧
      (∀ f ∈ frames, f.encode.length ≤ maxLength) ∧ frames.map rule = values.map .ok := by
  induction bytes using (measure List.length).wf.induction generalizing values with
  | _ bytes ih =>
  by_cases hb : bytes = []
  · subst hb
    rw [walk_nil] at h
    obtain rfl := Except.ok.inj h
    exact ⟨[], rfl, by simp, rfl⟩
  · rw [walk_of_ne_nil hb] at h
    split at h
    · simp at h
    · rename_i f rest hr
      obtain ⟨hbytes, hsmall⟩ := eq_encode_of_read hr
      split at h
      · simp at h
      · rename_i v hv
        cases hvs : walk name rule rest with
        | error e => simp [hvs, Except.map] at h
        | ok vs =>
          rw [hvs] at h
          obtain rfl := Except.ok.inj h
          obtain ⟨frames, hrest, hs, hm⟩ := ih rest (length_lt_of_read hr) hvs
          refine ⟨f :: frames, ?_, ?_, ?_⟩
          · rw [List.flatMap_cons, ← hrest, hbytes]
          · intro f' hf'
            rcases List.mem_cons.mp hf' with rfl | hf'
            · exact hsmall
            · exact hs f' hf'
          · rw [List.map_cons, List.map_cons, hv, hm]

/-- **`walk` accepts exactly the concatenations of frames that pass the rule.** -/
theorem walk_eq_ok_iff {bytes : List UInt8} {values : List α} :
    walk name rule bytes = .ok values ↔
      ∃ frames : List Frame, bytes = frames.flatMap encode ∧
        (∀ f ∈ frames, f.encode.length ≤ maxLength) ∧ frames.map rule = values.map .ok := by
  constructor
  · exact frames_of_walk
  · rintro ⟨frames, rfl, hs, hm⟩
    exact walk_flatMap_encode hs hm

end Walk

end FlowExport.Frame
