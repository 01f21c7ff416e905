/-
# Reading octets back

Writing and reading a number are inverse to each other on lists of a given width (`toNat_ofNat`,
`ofNat_toNat`), which is what lets a reader and a writer of a field agree without either mentioning
the other.  Octets of one width compare, octet by octet, as their numbers do
(`compare_eq_compare_toNat`).  What is written is read back by pattern: a number of two octets is
two octets whose word is that number (`ofNat_two`), and four are four (`ofNat_four`).  Records of
one width, laid end to end, are the pieces of that width (`pieces_flatten`), and a body that is a
whole number of pieces is their concatenation again (`flatten_pieces`).  `pieces_append` is what
merging relies on: whole records in front do not move the cuts behind them.
-/
import Mathlib.Algebra.Ring.Nat
import FlowExport.Octets

namespace FlowExport

@[simp] theorem total_eq_sum (lengths : List Nat) : total lengths = lengths.sum := rfl

namespace Octets

/-! ## 1. Numbers -/

theorem ofNat_succ (w n : Nat) : ofNat (w + 1) n = UInt8.ofNat (n / 256 ^ w) :: ofNat w n := by
  rw [ofNat, Nat.shiftRight_eq_div_pow, Nat.pow_mul]

theorem foldl_eq_add (bytes : List UInt8) (acc : Nat) :
    bytes.foldl (fun acc b => acc * 256 + b.toNat) acc
      = acc * 256 ^ bytes.length + toNat bytes := by
  induction bytes generalizing acc with
  | nil => simp [toNat]
  | cons b rest ih =>
    simp only [List.foldl_cons, List.length_cons, toNat]
    rw [ih, ih (0 * 256 + b.toNat)]
    simp only [Nat.pow_succ, Nat.add_mul, Nat.zero_mul, Nat.zero_add, Nat.mul_assoc,
      Nat.mul_comm 256]
    omega

theorem toNat_cons (b : UInt8) (bytes : List UInt8) :
    toNat (b :: bytes) = b.toNat * 256 ^ bytes.length + toNat bytes := by
  simp only [toNat, List.foldl_cons, Nat.zero_mul, Nat.zero_add]
  exact foldl_eq_add bytes b.toNat

theorem toNat_lt (bytes : List UInt8) : toNat bytes < 256 ^ bytes.length := by
  induction bytes with
  | nil => simp
  | cons b rest ih =>
    rw [toNat_cons, List.length_cons, Nat.pow_succ]
    have hb : b.toNat < 256 := b.toNat_lt
    have hm : b.toNat * 256 ^ rest.length ≤ 255 * 256 ^ rest.length :=
      Nat.mul_le_mul_right _ (by omega)
    omega

/-- **Writing then reading** keeps a number modulo what the width can hold. -/
theorem toNat_ofNat (w n : Nat) : toNat (ofNat w n) = n % 256 ^ w := by
  induction w with
  | zero => simp [ofNat, Nat.mod_one]
  | succ w ih =>
    rw [ofNat_succ, toNat_cons, length_ofNat, ih, UInt8.toNat_ofNat', Nat.pow_succ 256 w,
      Nat.mod_mul, Nat.mul_comm (256 ^ w)]
    exact Nat.add_comm _ _

/-- **Reading then writing** at the list's own width gives the list back. -/
theorem ofNat_toNat (bytes : List UInt8) : ofNat bytes.length (toNat bytes) = bytes := by
  have key : ∀ (bytes : List UInt8) (extra : Nat),
      ofNat bytes.length (extra * 256 ^ bytes.length + toNat bytes) = bytes := by
    intro bytes
    induction bytes with
    | nil => intro _; rfl
    | cons b rest ih =>
      intro extra
      have hpos : 0 < 256 ^ rest.length := Nat.pow_pos (by omega)
      have hlt := toNat_lt rest
      have hsplit : extra * 256 ^ (rest.length + 1) + toNat (b :: rest)
          = (extra * 256 + b.toNat) * 256 ^ rest.length + toNat rest := by
        rw [toNat_cons, Nat.pow_succ, Nat.add_mul, Nat.mul_assoc extra 256,
          Nat.mul_comm 256]
        omega
      rw [List.length_cons, hsplit, ofNat_succ, ih]
      congr 1
      rw [Nat.mul_comm, Nat.mul_add_div hpos, Nat.div_eq_of_lt hlt, Nat.add_zero]
      apply UInt8.toNat_inj.mp
      rw [UInt8.toNat_ofNat']
      have hb : b.toNat < 256 := b.toNat_lt
      omega
  simpa using key bytes 0

/-- A number below `256 ^ w` in a wider field is padded in front. -/
theorem ofNat_add_of_lt {w n : Nat} (h : n < 256 ^ w) : ∀ k : Nat,
    ofNat (k + w) n = List.replicate k 0 ++ ofNat w n
  | 0 => by rw [Nat.zero_add, List.replicate_zero, List.nil_append]
  | k + 1 => by
    have hlt : n < 256 ^ (k + w) := Nat.lt_of_lt_of_le h (Nat.pow_le_pow_right (by omega) (by omega))
    rw [Nat.succ_add, ofNat_succ, Nat.div_eq_of_lt hlt, ofNat_add_of_lt h k]
    rfl

/-- A narrower field holds the low octets. -/
theorem drop_ofNat (w n : Nat) : ∀ k : Nat, (ofNat (k + w) n).drop k = ofNat w n
  | 0 => by rw [Nat.zero_add, List.drop_zero]
  | k + 1 => by rw [Nat.succ_add, ofNat, List.drop_succ_cons, drop_ofNat w n k]

theorem compare_toNat (x y : UInt8) : compare x y = compare x.toNat y.toNat := by
  simp only [compare, compareOfLessAndEq, UInt8.lt_iff_toNat_lt, ← UInt8.toNat_inj]

/-- A higher first octet outweighs all that follow. -/
theorem toNat_cons_lt {x y : UInt8} {xs ys : List UInt8} (hl : xs.length = ys.length)
    (h : x.toNat < y.toNat) : toNat (x :: xs) < toNat (y :: ys) := by
  have hxs := toNat_lt xs
  have hfirst : (x.toNat + 1) * 256 ^ xs.length ≤ y.toNat * 256 ^ xs.length :=
    Nat.mul_le_mul_right _ h
  rw [toNat_cons, toNat_cons, ← hl]
  rw [Nat.succ_mul] at hfirst
  omega

/-- **Octets of one width are in the order of their numbers**, compared octet by octet. -/
theorem compare_eq_compare_toNat : ∀ {xs ys : List UInt8}, xs.length = ys.length →
    compare xs ys = compare (toNat xs) (toNat ys)
  | [], [], _ => rfl
  | x :: xs, y :: ys, h => by
    have hl : xs.length = ys.length := Nat.succ.inj h
    have hcons : compare (x :: xs) (y :: ys) = (compare x y).then (compare xs ys) :=
      List.compareLex_cons_cons
    rw [hcons, compare_toNat, compare_eq_compare_toNat hl]
    rcases Nat.lt_trichotomy x.toNat y.toNat with hlt | heq | hgt
    · rw [Nat.compare_eq_lt.mpr hlt, Nat.compare_eq_lt.mpr (toNat_cons_lt hl hlt)]
      rfl
    · -- the first octets are worth the same, so what follows decides on both sides
      rw [Nat.compare_eq_eq.mpr heq, toNat_cons, toNat_cons, heq, hl, Ordering.eq_then]
      simp only [compare, compareOfLessAndEq, Nat.add_lt_add_iff_left, Nat.add_left_cancel_iff]
    · rw [Nat.compare_eq_gt.mpr hgt, Nat.compare_eq_gt.mpr (toNat_cons_lt hl.symm hgt)]
      rfl

/-! ## 2. Words -/

theorem word16_of_toNat {hi lo : UInt8} {n : Nat} (h : toNat [hi, lo] = n % 256 ^ 2) :
    word16 hi lo = UInt16.ofNat n := by
  apply UInt16.toNat_inj.mp
  rw [word16, h, UInt16.toNat_ofNat', UInt16.toNat_ofNat']
  omega

theorem ofNat_two (n : Nat) :
    ∃ hi lo, ofNat 2 n = [hi, lo] ∧ word16 hi lo = UInt16.ofNat n :=
  ⟨_, _, rfl, word16_of_toNat (toNat_ofNat 2 n)⟩

theorem ofNat_four (n : Nat) :
    ∃ a b c d, ofNat 4 n = [a, b, c, d] ∧ word32 a b c d = UInt32.ofNat n := by
  refine ⟨_, _, _, _, rfl, ?_⟩
  apply UInt32.toNat_inj.mp
  have h := toNat_ofNat 4 n
  simp only [ofNat] at h
  rw [word32, h, UInt32.toNat_ofNat', UInt32.toNat_ofNat']
  omega

/-- A word, high octet first. -/
theorem ofNat_word (value : UInt16) :
    ofNat 2 value.toNat = [(value >>> 8).toUInt8, value.toUInt8] := by
  simp only [ofNat, List.cons.injEq, and_true]
  refine ⟨UInt8.toNat_inj.mp ?_, rfl⟩
  simp

/-- A double word, high octet first. -/
theorem ofNat_doubleWord (value : UInt32) : ofNat 4 value.toNat
    = [(value >>> 24).toUInt8, (value >>> 16).toUInt8, (value >>> 8).toUInt8, value.toUInt8] := by
  simp only [ofNat, List.cons.injEq, and_true]
  refine ⟨UInt8.toNat_inj.mp ?_, UInt8.toNat_inj.mp ?_, UInt8.toNat_inj.mp ?_, rfl⟩ <;> simp

theorem toNat_word16 (hi lo : UInt8) : (word16 hi lo).toNat = toNat [hi, lo] := by
  have h : toNat [hi, lo] < 256 ^ 2 := toNat_lt [hi, lo]
  rw [word16, UInt16.toNat_ofNat']
  omega

/-- A word is written as the two octets it was read from. -/
theorem ofNat_word16 (hi lo : UInt8) : ofNat 2 (word16 hi lo).toNat = [hi, lo] := by
  rw [toNat_word16]
  exact ofNat_toNat [hi, lo]

/-- Two octets keep the low half of a double word, or of any number. -/
theorem ofNat_low (n : Nat) : ofNat 2 (UInt16.ofNat n).toNat = ofNat 2 n := by
  obtain ⟨hi, lo, hn, hw⟩ := ofNat_two n
  rw [← hw, ofNat_word16, hn]

/-- A word in its two halves. -/
theorem word16_halves (n : UInt16) :
    word16 (UInt8.ofNat (n.toNat / 256)) (UInt8.ofNat n.toNat) = n := by
  obtain ⟨hi, lo, hn, hw⟩ := ofNat_two n.toNat
  have hhalves : UInt8.ofNat (n.toNat / 256) = hi ∧ UInt8.ofNat n.toNat = lo := by
    simpa [ofNat, Nat.shiftRight_eq_div_pow] using hn
  rw [hhalves.1, hhalves.2, hw, UInt16.ofNat_toNat]

theorem ofNat_word32 (a b c d : UInt8) : ofNat 4 (word32 a b c d).toNat = [a, b, c, d] := by
  have h : toNat [a, b, c, d] < 256 ^ 4 := toNat_lt [a, b, c, d]
  have hw : (word32 a b c d).toNat = toNat [a, b, c, d] := by
    rw [word32, UInt32.toNat_ofNat']
    omega
  rw [hw]
  exact ofNat_toNat [a, b, c, d]

/-! ## 3. Pieces of one width -/

theorem length_cut (width : Nat) : ∀ (count : Nat) (bytes : List UInt8),
    (cut width count bytes).length = count
  | 0, _ => rfl
  | count + 1, bytes => by
    rw [cut, List.length_cons, length_cut width count]

theorem flatten_cut (width : Nat) : ∀ (count : Nat) (bytes : List UInt8),
    (cut width count bytes).flatten = bytes.take (count * width)
  | 0, _ => by simp [cut]
  | count + 1, bytes => by
    rw [cut, List.flatten_cons, flatten_cut width count, Nat.succ_mul, Nat.add_comm,
      List.take_add]

/-- Records of the width, laid end to end, are cut where they join. -/
theorem cut_flatten_append {width : Nat} {records : List (List UInt8)} (rest : List UInt8)
    (h : ∀ r ∈ records, r.length = width) :
    cut width records.length (records.flatten ++ rest) = records := by
  induction records with
  | nil => rfl
  | cons r records ih =>
    have hr : r.length = width := h r (by simp)
    rw [List.length_cons, cut, List.flatten_cons, List.append_assoc, ← hr, List.take_left,
      List.drop_left, hr, ih (fun r' hr' => h r' (by simp [hr']))]

theorem length_flatten_of_length {width : Nat} {records : List (List UInt8)}
    (h : ∀ r ∈ records, r.length = width) : records.flatten.length = records.length * width := by
  induction records with
  | nil => simp
  | cons r records ih =>
    rw [List.flatten_cons, List.length_append, List.length_cons, h r (by simp),
      ih (fun r' hr' => h r' (by simp [hr'])), Nat.succ_mul, Nat.add_comm]

/-- **Records of one width are the pieces of their concatenation.** -/
theorem pieces_flatten {width : Nat} {records : List (List UInt8)} (hw : 0 < width)
    (h : ∀ r ∈ records, r.length = width) : pieces width records.flatten = records := by
  have hc : records.flatten.length / width = records.length := by
    rw [length_flatten_of_length h, Nat.mul_div_cancel _ hw]
  have := cut_flatten_append [] h
  rwa [List.append_nil, ← hc] at this

/-- **A whole number of pieces** makes up the body again. -/
theorem flatten_pieces {width : Nat} {bytes : List UInt8} (h : width ∣ bytes.length) :
    (pieces width bytes).flatten = bytes := by
  rw [pieces, flatten_cut, Nat.div_mul_cancel h, List.take_length]

theorem length_of_mem_cut {width : Nat} : ∀ {count : Nat} {bytes r : List UInt8},
    count * width ≤ bytes.length → r ∈ cut width count bytes → r.length = width
  | 0, _, _, _, hr => absurd hr (by simp [cut])
  | count + 1, bytes, r, hl, hr => by
    rw [Nat.succ_mul] at hl
    rcases List.mem_cons.mp hr with rfl | hr
    · rw [List.length_take]
      omega
    · refine length_of_mem_cut ?_ hr
      rw [List.length_drop]
      omega

theorem length_of_mem_pieces {width : Nat} {bytes r : List UInt8} (h : r ∈ pieces width bytes) :
    r.length = width :=
  length_of_mem_cut (Nat.div_mul_le_self _ _) h

/-- **Whole records in front do not move the cuts behind them.** -/
theorem pieces_append {width : Nat} {a b : List UInt8} (ha : width ∣ a.length) :
    pieces width (a ++ b) = pieces width a ++ pieces width b := by
  rcases Nat.eq_zero_or_pos width with rfl | hw
  · simp [pieces, cut]
  · obtain ⟨n, hn⟩ := ha
    have key : ∀ (n : Nat) (a : List UInt8), a.length = width * n → ∀ m,
        cut width (n + m) (a ++ b) = cut width n a ++ cut width m b := by
      intro n
      induction n with
      | zero =>
        intro a ha m
        have hnil : a = [] := List.length_eq_zero_iff.mp (by simpa using ha)
        subst hnil
        simp [cut]
      | succ n ih =>
        intro a ha m
        have hle : width ≤ a.length := by
          rw [ha, Nat.mul_succ]
          omega
        rw [Nat.succ_add, cut, cut, List.take_append_of_le_length hle,
          List.drop_append_of_le_length hle, List.cons_append,
          ih (a.drop width) (by rw [List.length_drop, ha, Nat.mul_succ]; omega) m]
    have hl : (a ++ b).length / width = a.length / width + b.length / width := by
      rw [List.length_append, hn, Nat.mul_add_div hw, Nat.mul_div_cancel_left _ hw]
    rw [pieces, hl, pieces, pieces]
    refine key _ a ?_ _
    rw [hn, Nat.mul_div_cancel_left _ hw]

/-- The front of octets that are continued otherwise behind it. -/
theorem take_take_append {bytes : List UInt8} {k l : Nat} (hk : k ≤ l) (hl : l ≤ bytes.length)
    (rest : List UInt8) : (bytes.take l ++ rest).take k = bytes.take k := by
  have hlen : (bytes.take l).length = l := by rw [List.length_take, Nat.min_eq_left hl]
  rw [List.take_append_of_le_length (by rw [hlen]; exact hk), List.take_take, Nat.min_eq_left hk]

end Octets

end FlowExport
