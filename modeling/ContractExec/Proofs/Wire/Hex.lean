import ContractExec.Wire.Hex

/-!
# Addresses and amounts read back

A number is written in as few digits as it needs, and a byte string in two digits for each byte.
Both are read by one function, which takes the digits in pairs and the first one alone where their
number is odd.

* `Hex.valueOf` — the number that digit values write, the first one in the highest place;
* `Hex.spaced?_map_digit` — digits read as bytes write the same number in base 256;
* `Hex.spaced?_ofBytes` — the digits of a byte string read as that byte string;
* `Amount.ofHex?_toHex`, `Address.ofHex?_toText` — each text is read as what it was written for.
-/

namespace ContractExec

namespace Hex

/-! ### Numbers and their digits -/

/-- The number that digits of these values write, the first one in the highest place. -/
def valueOf (values : List Nat) : Nat :=
  values.foldl (fun n value => 16 * n + value) 0

theorem valueOf_concat (values : List Nat) (value : Nat) :
    valueOf (values ++ [value]) = 16 * valueOf values + value := by
  simp [valueOf]

theorem valueOf_zero_cons (values : List Nat) : valueOf (0 :: values) = valueOf values := rfl

theorem valueOf_digits (n : Nat) : valueOf (digits n) = n := by
  fun_induction digits n with
  | case1 n hsmall => simp [valueOf]
  | case2 n hlarge ih =>
    rw [valueOf_concat, ih]
    omega

theorem lt_of_mem_digits {n value : Nat} (h : value ∈ digits n) : value < 16 := by
  fun_induction digits n with
  | case1 n hsmall =>
    rw [List.mem_singleton] at h
    omega
  | case2 n hlarge ih =>
    rw [List.mem_append, List.mem_singleton] at h
    rcases h with hhigh | hlast
    · exact ih hhigh
    · omega

theorem length_digits_pos (n : Nat) : 0 < (digits n).length := by
  rw [digits]
  split <;> simp

/-- A number that fits in four bits for each place has no more digits than places. -/
theorem length_digits_le {n places : Nat} (h : n < 1 <<< (4 * (places + 1))) :
    (digits n).length ≤ places + 1 := by
  induction places generalizing n with
  | zero =>
    rw [digits, if_pos (by simpa using h)]
    exact Nat.le_refl 1
  | succ places ih =>
    have hnext : 1 <<< (4 * (places + 1 + 1)) = 16 * 1 <<< (4 * (places + 1)) := by
      rw [Nat.shiftLeft_eq, Nat.shiftLeft_eq, Nat.mul_succ, Nat.pow_add]
      omega
    rw [digits]
    split
    · simp
    · have hhigh : n / 16 < 1 <<< (4 * (places + 1)) := by omega
      rw [List.length_append, List.length_singleton]
      exact Nat.succ_le_succ (ih hhigh)

/-! ### Digits read as bytes -/

theorem isBlank_digit {value : Nat} (h : value < 16) : isBlank (digit value) = false := by
  have hall : ∀ v : Fin 16, isBlank (digit v) = false := by decide
  exact hall ⟨value, h⟩

theorem values?_digit_cons {value : Nat} (h : value < 16) (text : List Char) :
    values? (digit value :: text) = (values? text).map (value :: ·) := by
  rw [values?, isBlank_digit h, digitValue?_digit h]
  cases values? text <;> rfl

theorem values?_map_digit {values : List Nat} (h : ∀ value ∈ values, value < 16) :
    values? (values.map digit) = some values := by
  induction values with
  | nil => rfl
  | cons value values ih =>
    rw [List.forall_mem_cons] at h
    rw [List.map_cons, values?_digit_cons h.1, ih h.2]
    rfl

/-- Taken in pairs, an even number of digits writes the same number in base 256. -/
theorem toNat_pairs {values : List Nat} (heven : values.length % 2 = 0)
    (hsmall : ∀ value ∈ values, value < 16) : (pairs values).toNat = valueOf values := by
  -- Both are folds from the left, so what the digits in front have written is carried along.
  have hfold : ∀ start, (pairs values).foldl (fun n byte => 256 * n + byte.toNat) start
      = values.foldl (fun n value => 16 * n + value) start := by
    fun_induction pairs values with
    | case1 high low rest ih =>
      intro start
      rw [List.forall_mem_cons, List.forall_mem_cons] at hsmall
      obtain ⟨hhigh, hlow, hrest⟩ := hsmall
      have hbyte : (UInt8.ofNat (16 * high + low)).toNat = 16 * high + low :=
        UInt8.toNat_ofNat_of_lt' (show 16 * high + low < 256 by omega)
      have hplaces : 256 * start + (16 * high + low) = 16 * (16 * start + high) + low := by omega
      have hpairs : rest.length % 2 = 0 := by
        rw [List.length_cons, List.length_cons] at heven
        omega
      rw [List.foldl_cons, List.foldl_cons, List.foldl_cons, hbyte, hplaces]
      exact ih hpairs hrest _
    | case2 values hshort =>
      intro start
      match values with
      | [] => rfl
      | [value] => exact absurd heven (by simp)
      | high :: low :: rest => exact absurd rfl (hshort high low rest)
  exact hfold 0

theorem spaced?_map_digit {values : List Nat} (h : ∀ value ∈ values, value < 16) :
    ∃ bytes, spaced? (values.map digit) = some bytes ∧ bytes.toNat = valueOf values := by
  rw [spaced?, values?_map_digit h, Option.bind_eq_bind, Option.bind_some, List.length_map]
  by_cases heven : values.length % 2 = 0
  · exact ⟨pairs values, if_pos heven, toNat_pairs heven h⟩
  · have hsmall : ∀ value ∈ 0 :: values, value < 16 :=
      List.forall_mem_cons.mpr ⟨by decide, h⟩
    refine ⟨pairs (0 :: values), if_neg heven, ?_⟩
    rw [toNat_pairs (by rw [List.length_cons]; omega) hsmall, valueOf_zero_cons]

theorem length_ofBytes (bytes : Bytes) : (ofBytes bytes).length = 2 * bytes.length := by
  induction bytes with
  | nil => rfl
  | cons byte rest ih =>
    rw [ofBytes, List.length_cons, List.length_cons, ih, List.length_cons]
    omega

theorem values?_ofBytes (bytes : Bytes) :
    ∃ values, values? (ofBytes bytes) = some values ∧ pairs values = bytes := by
  induction bytes with
  | nil => exact ⟨[], rfl, rfl⟩
  | cons byte rest ih =>
    obtain ⟨values, hvalues, hpairs⟩ := ih
    have hlt := byte.toNat_lt
    have hbyte : 16 * (byte.toNat / 16) + byte.toNat % 16 = byte.toNat := Nat.div_add_mod _ _
    refine ⟨byte.toNat / 16 :: byte.toNat % 16 :: values, ?_, ?_⟩
    · rw [ofBytes, values?_digit_cons (show byte.toNat / 16 < 16 by omega),
        values?_digit_cons (show byte.toNat % 16 < 16 by omega), hvalues]
      rfl
    · rw [pairs, hbyte, UInt8.ofNat_toNat, hpairs]

theorem spaced?_ofBytes (bytes : Bytes) : spaced? (ofBytes bytes) = some bytes := by
  obtain ⟨values, hvalues, hpairs⟩ := values?_ofBytes bytes
  rw [spaced?, hvalues, Option.bind_eq_bind, Option.bind_some,
    if_pos (by rw [length_ofBytes]; omega), hpairs]

theorem unmarked_marked (digits : List Char) :
    unmarked ("0x" ++ String.ofList digits) = digits := by
  simp [unmarked]

end Hex

/-! ### Amounts and addresses -/

theorem Amount.ofHex?_toHex (a : Amount) : Amount.ofHex? a.toHex = some a := by
  have hpos := Hex.length_digits_pos a.toNat
  have hle : (Hex.digits a.toNat).length ≤ 63 + 1 :=
    Hex.length_digits_le (show a.toNat < 1 <<< (4 * (63 + 1)) from a.isLt)
  obtain ⟨bytes, hbytes, hvalue⟩ := Hex.spaced?_map_digit fun _ => Hex.lt_of_mem_digits (n := a.toNat)
  have hlength : ¬((Hex.digits a.toNat).length = 0 ∨ 64 < (Hex.digits a.toNat).length) := by omega
  rw [Amount.ofHex?, Amount.toHex, Hex.unmarked_marked]
  simp only [List.length_map, if_neg hlength, hbytes]
  change some (BitVec.ofNat 256 bytes.toNat) = some a
  rw [hvalue, Hex.valueOf_digits, BitVec.ofNat_toNat, BitVec.setWidth_eq]

theorem Address.ofHex?_toText (a : Address) : Address.ofHex? a.toText = some a := by
  have hbytes : a.toBytes.length = 20 := Bytes.length_ofNat 20 a.toNat
  have hlength : (Hex.ofBytes a.toBytes).length = 40 := by rw [Hex.length_ofBytes, hbytes]
  rw [Address.ofHex?, Address.toText, Address.toHex, Bytes.toHex, Hex.unmarked_marked]
  simp only [hlength, Hex.spaced?_ofBytes, if_true]
  change some (Address.ofBytes (a.toBytes ++ List.replicate (20 - a.toBytes.length) 0)) = some a
  rw [hbytes, Nat.sub_self, List.replicate_zero, List.append_nil, Address.ofBytes_toBytes]

end ContractExec
