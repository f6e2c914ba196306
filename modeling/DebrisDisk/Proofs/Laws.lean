import DebrisDisk.Proofs.Special.Overflow
import DebrisDisk.Proofs.StepCounts

/-!
# Laws that rounding keeps

Some statements about runs need a little more than the text of the definitions and much less than
exact arithmetic. `Scalar.Ordered` collects laws of the comparisons, of which an undefined number is
no part: it compares with nothing, itself included. `Scalar.Neutral` says that a zero adds nothing
to a positive finite number and that such a number cancels itself. The real numbers and the binary64
numbers have both, and so have rounded numbers, as long as a hundred is finite in their format.

For binary64 numbers the order is that of their places: the kind and the sign decide first, then the
exponent, then the mantissa. A number is restored from its unpacked form, so a sum that leaves the
unpacked form alone leaves the number alone.

## Main results

* `Scalar.le_foldl_fmax`, `Scalar.foldl_fmax_mem`: a running maximum of defined numbers is one.
* `Scalar.Binary64.compare_eq`: binary64 numbers compare as their places do.
* `Scalar.Binary64.ofModel_pack`: a binary64 number is restored from its unpacked form.
-/

namespace DebrisDisk

/-- Comparisons order the numbers that compare with themselves. -/
class Scalar.Ordered (α : Type) [Scalar α] : Prop where
  le_self_of_le : ∀ {x y : α}, x ≤ y → x ≤ x ∧ y ≤ y
  le_trans : ∀ {x y z : α}, x ≤ y → y ≤ z → x ≤ z
  le_of_lt : ∀ {x y : α}, x < y → x ≤ y
  not_lt_of_le : ∀ {x y : α}, x ≤ y → ¬ y < x
  le_of_not_lt : ∀ {x y : α}, x ≤ x → y ≤ y → ¬ x < y → y ≤ x
  zero_le_zero : (0 : α) ≤ 0

/-- A zero adds nothing to a positive finite number, which cancels itself. -/
class Scalar.Neutral (α : Type) [Scalar α] : Prop where
  zero_add_zero : (0 : α) + 0 = 0
  add_zero : ∀ x : α, Scalar.isPositive x = true → x + 0 = x
  sub_zero : ∀ x : α, Scalar.isPositive x = true → x - 0 = x
  sub_self : ∀ x : α, Scalar.isPositive x = true → x - x = 0
  zero_div : ∀ x : α, Scalar.isPositive x = true → 0 / x = 0
  zero_percent : (0 : α) * 100.0 = 0

namespace Scalar
variable {α : Type} [Scalar α] {x y : α}

/-! ## Zero -/

section Ordered
variable [Ordered α]

theorem not_zero_lt_of_isZero (h : isZero x = true) : ¬ 0 < x := by
  simp only [isZero, Bool.and_eq_true, decide_eq_true_eq] at h
  exact Ordered.not_lt_of_le h.1

theorem magnitude_zero : magnitude (0 : α) = 0 := by
  rw [magnitude, if_neg (Ordered.not_lt_of_le Ordered.zero_le_zero)]

/-! ## Running maxima -/

theorem isNaN_eq_false_of_le (h : x ≤ y) : isNaN x = false := by
  simp [isNaN, (Ordered.le_self_of_le h).1]

/-- The greater of two defined numbers is at least as great as each. -/
theorem le_fmax (hx : x ≤ x) (hy : y ≤ y) : x ≤ fmax x y ∧ y ≤ fmax x y := by
  simp only [fmax, isNaN_eq_false_of_le hy]
  split
  · rename_i less
    exact ⟨hx, Ordered.le_of_lt less⟩
  · rename_i unlike
    exact ⟨Ordered.le_of_not_lt hy hx unlike, hy⟩

/-- A running maximum of defined numbers is at least as great as its start and as each of them. -/
theorem le_foldl_fmax {xs : List α} (start : x ≤ x) (defined : ∀ y ∈ xs, y ≤ y) :
    x ≤ xs.foldl fmax x ∧ ∀ y ∈ xs, y ≤ xs.foldl fmax x := by
  induction xs generalizing x with
  | nil => simpa using start
  | cons z rest ih =>
    simp only [List.mem_cons, forall_eq_or_imp] at defined
    obtain ⟨left, right⟩ := le_fmax start defined.1
    obtain ⟨above, later⟩ := ih (Ordered.le_self_of_le left).2 defined.2
    simp only [List.foldl_cons, List.mem_cons, forall_eq_or_imp]
    exact ⟨Ordered.le_trans left above, Ordered.le_trans right above, later⟩

end Ordered

/-- A running maximum is its start or one of the numbers. -/
theorem foldl_fmax_mem (xs : List α) (x : α) : xs.foldl fmax x = x ∨ xs.foldl fmax x ∈ xs := by
  induction xs generalizing x with
  | nil => exact .inl rfl
  | cons y rest ih =>
    have greater : fmax x y = x ∨ fmax x y = y := by
      simp only [fmax]
      split
      · exact .inl rfl
      · split
        · exact .inl rfl
        · exact .inr rfl
    rw [List.foldl_cons, List.mem_cons]
    rcases ih (fmax x y) with same | member
    · rw [same]
      exact greater.imp_right .inl
    · exact .inr (.inr member)

/-! ## Real numbers -/

instance : Ordered ℝ where
  le_self_of_le _ := ⟨le_rfl, le_rfl⟩
  le_trans := le_trans
  le_of_lt := le_of_lt
  not_lt_of_le := not_lt_of_ge
  le_of_not_lt _ _ := le_of_not_gt
  zero_le_zero := le_rfl

instance : Neutral ℝ where
  zero_add_zero := add_zero 0
  add_zero x _ := add_zero x
  sub_zero x _ := sub_zero x
  sub_self x _ := sub_self x
  zero_div x _ := zero_div x
  zero_percent := zero_mul _

/-! ## Rounded numbers -/

instance {R : Rounding} : Ordered (Rounded R) where
  le_self_of_le h := (Rounded.ne_nan_of_le h).imp Rounded.le_self Rounded.le_self
  le_trans := Rounded.le_trans
  le_of_lt := Rounded.le_of_lt
  not_lt_of_le h :=
    (Rounded.not_lt_iff (Rounded.ne_nan_of_le h).2 (Rounded.ne_nan_of_le h).1).mpr h
  le_of_not_lt hx hy :=
    (Rounded.not_lt_iff (Rounded.ne_nan_of_le hx).1 (Rounded.ne_nan_of_le hy).1).mp
  zero_le_zero := Rounded.le_self Rounded.zero_ne_nan

private theorem exists_num_of_isPositive {R : Rounding} {x : Rounded R}
    (h : isPositive x = true) : ∃ a : R.Magnitude, x = .num false a ∧ a.val ≠ 0 ∧ a.val ≠ ⊤ := by
  obtain ⟨positive, finite⟩ : 0 < x ∧ isFinite x = true := by simpa [isPositive] using h
  obtain ⟨a, rfl, some⟩ := Rounded.exists_num_of_pos positive
  exact ⟨a, rfl, some, by simpa [isFinite] using finite⟩

/-- A zero percentage is undefined in a format in which a hundred is infinite. -/
theorem neutral_rounded {R : Rounding} (hundred : isFinite (100.0 : Rounded R) = true) :
    Neutral (Rounded R) where
  zero_add_zero := by
    change (.num false (R.fit 0) + .num false (R.fit 0) : Rounded R) = .num false (R.fit 0)
    simp [Rounded.num_add_num]
  add_zero x h := by
    obtain ⟨a, rfl, _⟩ := exists_num_of_isPositive h
    change (.num false a + .num false (R.fit 0) : Rounded R) = _
    simp [Rounded.num_add_num]
  sub_zero x h := by
    obtain ⟨a, rfl, some, _⟩ := exists_num_of_isPositive h
    change (.num false a - .num false (R.fit 0) : Rounded R) = _
    simp [Rounded.num_sub_num, Rounded.num_add_num, pos_iff_ne_zero.mpr some]
  sub_self x h := by
    obtain ⟨a, rfl, _, bounded⟩ := exists_num_of_isPositive h
    change (.num false a - .num false a : Rounded R) = .num false (R.fit 0)
    simp [Rounded.num_sub_num, Rounded.num_add_num, bounded]
  zero_div x h := by
    obtain ⟨a, rfl, some, _⟩ := exists_num_of_isPositive h
    change (.num false (R.fit 0) / .num false a : Rounded R) = .num false (R.fit 0)
    simp [Rounded.num_div_num, some]
  zero_percent := by
    have bounded := (Rounded.isFinite_iff.mp hundred).2
    change R.round _ ≠ ⊤ at bounded
    change (.num false (R.fit 0) * .num false (R.fit _) : Rounded R) = .num false (R.fit 0)
    simp [Rounded.num_mul_num, bounded]

instance : Neutral (Rounded .overflow) :=
  neutral_rounded (Rounded.Stands.literal 1000 true 1
    (Rounding.lt_bound_of_le (by norm_num))).isFinite

end Scalar

/-! ## Binary64 numbers -/

namespace Scalar.Binary64
open Float.Model Float.Model.UnpackedFloat

section Order

/-- The place of a number in the order of all numbers: its kind and sign, then its exponent and its
mantissa. An undefined number has none. -/
def place? : UnpackedFloat → Option (ℤ ×ₗ ℤ ×ₗ ℤ)
  | .notANumber => none
  | .infinity .negative => some (toLex (-2, toLex (0, 0)))
  | .finite .negative m e _ => some (toLex (-1, toLex (-e, -m)))
  | .zero _ => some (toLex (0, toLex (0, 0)))
  | .finite .positive m e _ => some (toLex (1, toLex (e, m)))
  | .infinity .positive => some (toLex (2, toLex (0, 0)))

theorem compare_cast (m n : ℕ) : compare (m : ℤ) n = compare m n := by
  rw [← cmp_eq_compare, ← cmp_eq_compare, Nat.strictMono_cast.cmp_map_eq]

theorem compare_neg (e f : ℤ) : compare (-e) (-f) = (compare e f).swap := by
  have anti : StrictAnti fun n : ℤ => -n := fun _ _ => neg_lt_neg
  rw [← cmp_eq_compare, ← cmp_eq_compare, cmp_swap]
  exact anti.cmp_map_eq e f

/-- Numbers compare as their places do. -/
theorem compare_eq (a b : UnpackedFloat) :
    a.compare b = (place? a).bind fun k => (place? b).map (compare k) := by
  rcases a with (_ | _) | _ | _ | ⟨(_ | _), m, e, _⟩ <;>
    rcases b with (_ | _) | _ | _ | ⟨(_ | _), n, f, _⟩
  case finite.negative.finite.negative =>
    simp [UnpackedFloat.compare, place?, Prod.Lex.compare_def, compareLex, compareOn,
      compare_cast, compare_neg, Ordering.swap_then]
  case finite.positive.finite.positive =>
    simp [UnpackedFloat.compare, place?, Prod.Lex.compare_def, compareLex, compareOn,
      compare_cast]
  all_goals rfl

variable {x y z : Float}

/-- The place of a binary64 number. -/
def placeOf (x : Float) : Option (ℤ ×ₗ ℤ ×ₗ ℤ) := place? x.toModel.unpack

theorem le_iff_place : x ≤ y ↔ ∃ k l, placeOf x = some k ∧ placeOf y = some l ∧ k ≤ l := by
  have model : x ≤ y ↔ x.toModel.unpack.le y.toModel.unpack = true := decide_eq_true_iff
  rw [model, UnpackedFloat.le, compare_eq, placeOf, placeOf]
  cases place? x.toModel.unpack <;> cases place? y.toModel.unpack <;>
    simp [Ordering.isLE_iff_ne_gt, compare_le_iff_le]

theorem lt_iff_place : x < y ↔ ∃ k l, placeOf x = some k ∧ placeOf y = some l ∧ k < l := by
  have model : x < y ↔ x.toModel.unpack.lt y.toModel.unpack = true := decide_eq_true_iff
  rw [model, UnpackedFloat.lt, compare_eq, placeOf, placeOf]
  cases place? x.toModel.unpack <;> cases place? y.toModel.unpack <;> simp [compare_lt_iff_lt]

instance : Ordered Float where
  le_self_of_le h := by
    obtain ⟨k, l, hk, hl, _⟩ := le_iff_place.mp h
    exact ⟨le_iff_place.mpr ⟨k, k, hk, hk, le_rfl⟩, le_iff_place.mpr ⟨l, l, hl, hl, le_rfl⟩⟩
  le_trans h h' := by
    obtain ⟨k, l, hk, hl, less⟩ := le_iff_place.mp h
    obtain ⟨l', m, hl', hm, more⟩ := le_iff_place.mp h'
    obtain rfl := Option.some.inj (hl.symm.trans hl')
    exact le_iff_place.mpr ⟨k, m, hk, hm, less.trans more⟩
  le_of_lt h := by
    obtain ⟨k, l, hk, hl, less⟩ := lt_iff_place.mp h
    exact le_iff_place.mpr ⟨k, l, hk, hl, less.le⟩
  not_lt_of_le h h' := by
    obtain ⟨k, l, hk, hl, less⟩ := le_iff_place.mp h
    obtain ⟨l', k', hl', hk', more⟩ := lt_iff_place.mp h'
    obtain rfl := Option.some.inj (hl.symm.trans hl')
    obtain rfl := Option.some.inj (hk.symm.trans hk')
    exact absurd more less.not_gt
  le_of_not_lt hx hy h := by
    obtain ⟨k, _, hk, _⟩ := le_iff_place.mp hx
    obtain ⟨l, _, hl, _⟩ := le_iff_place.mp hy
    refine le_iff_place.mpr ⟨l, k, hl, hk, not_lt.mp fun less => h ?_⟩
    exact lt_iff_place.mpr ⟨k, l, hk, hl, less⟩
  zero_le_zero := by decide

end Order

/-! ### The unpacked form -/

section Unpacking

theorem toBitVec_ofBitVec (v : BitVec 1) : (Sign.ofBitVec v).toBitVec = v := by
  revert v
  decide

/-- A word is put together from its three parts. -/
theorem packComponents_unpack {b : BitVec Format.binary64.numBits}
    {e : BitVec Format.binary64.exponentBits}
    {m : BitVec Format.binary64.mantissaBitsWithoutImplicit}
    (exponent : unpackExponent b = e) (mantissa : unpackMantissa b = m) :
    packComponents .binary64 (Sign.ofBitVec (unpackSign b)) e m = b := by
  subst exponent mantissa
  simp only [packComponents, toBitVec_ofBitVec, unpackSign, unpackExponent, unpackMantissa,
    BitVec.extractLsb]
  ext i hi
  grind

/-- A number without a leading digit, which has the least exponent. -/
theorem pack_subnormal {b : BitVec Format.binary64.numBits} (exponent : unpackExponent b = 0#11)
    (positive : 0 < (unpackMantissa b).toNat) :
    UnpackedFloat.pack .binary64
      (.finite (Sign.ofBitVec (unpackSign b)) (unpackMantissa b).toNat (-1074) positive) = b := by
  have short : (unpackMantissa b).toNat < 2 ^ 52 := (unpackMantissa b).isLt
  have digits : ¬ (unpackMantissa b).toNat.log2 + 1 = Format.binary64.mantissaBits := by
    have below := (Nat.log2_lt (by omega)).mpr short
    have places : Format.binary64.mantissaBits = 53 := rfl
    omega
  rw [UnpackedFloat.pack]
  simp only [if_neg digits]
  rw [if_neg (by decide)]
  exact packComponents_unpack exponent (by simp)

/-- A number with a leading digit, which is not written. -/
theorem pack_normal {b : BitVec Format.binary64.numBits} (bounded : unpackExponent b ≠ -1#11)
    (positive : 0 < (1#1 ++ unpackMantissa b).toNat) :
    UnpackedFloat.pack .binary64 (.finite (Sign.ofBitVec (unpackSign b))
      (1#1 ++ unpackMantissa b).toNat ((unpackExponent b).toNat - 1075) positive) = b := by
  have short : (unpackMantissa b).toNat < 2 ^ 52 := (unpackMantissa b).isLt
  have leading : (1#1 ++ unpackMantissa b).toNat = 2 ^ 52 + (unpackMantissa b).toNat := by
    rw [BitVec.toNat_append]
    exact (Nat.two_pow_add_eq_or_of_lt short 1).symm
  have digits : (1#1 ++ unpackMantissa b).toNat.log2 + 1 = Format.binary64.mantissaBits := by
    have places : Format.binary64.mantissaBits = 53 := rfl
    have digits : Nat.log2 (2 ^ 52 + (unpackMantissa b).toNat) = 52 :=
      (Nat.log2_eq_iff (by omega)).mpr (by omega)
    rw [leading, places, digits]
  have biased : ((unpackExponent b).toNat - 1075 + Format.binary64.exponentBias
      + Format.binary64.mantissaBitsWithoutImplicit : ℤ).toNat = (unpackExponent b).toNat := by
    have bias : (Format.binary64.exponentBias : ℤ) = 1023 := rfl
    have places : (Format.binary64.mantissaBitsWithoutImplicit : ℤ) = 52 := rfl
    omega
  have room : ¬ 2 ^ Format.binary64.exponentBits ≤ (unpackExponent b).toNat + 1 := by
    have bound : (unpackExponent b).toNat < 2 ^ 11 := (unpackExponent b).isLt
    have unlike : (unpackExponent b).toNat ≠ (-1#11).toNat := fun same =>
      bounded (BitVec.eq_of_toNat_eq same)
    have last : (-1#11).toNat = 2 ^ 11 - 1 := rfl
    have width : 2 ^ Format.binary64.exponentBits = 2 ^ 11 := rfl
    omega
  have mantissa : unpackMantissa b = BitVec.ofNat 52 (1#1 ++ unpackMantissa b).toNat := by
    apply BitVec.eq_of_toNat_eq
    rw [leading, BitVec.toNat_ofNat, Nat.add_mod_left]
    exact (Nat.mod_eq_of_lt short).symm
  rw [UnpackedFloat.pack]
  simp only [if_pos digits, biased, if_neg room]
  exact packComponents_unpack (by simp) mantissa

theorem pack_unpack_of_valid {b : BitVec Format.binary64.numBits}
    (valid : Format.binary64.Valid b) :
    UnpackedFloat.pack .binary64 (UnpackedFloat.unpack .binary64 b) = b := by
  rw [UnpackedFloat.unpack]
  split
  · rename_i exponent
    split
    · rename_i mantissa
      exact packComponents_unpack exponent mantissa
    · rename_i mantissa
      exact (valid.eq_packedNaN exponent mantissa).symm
  · rename_i bounded
    split
    · rename_i exponent
      split
      · rename_i mantissa
        exact packComponents_unpack exponent mantissa
      · have least : ((unpackExponent b).toNat : ℤ) - (Format.binary64.exponentBias
            + Format.binary64.mantissaBitsWithoutImplicit) + 1 = -1074 := by
          rw [exponent]
          rfl
        simp only [least]
        exact pack_subnormal exponent _
    · exact pack_normal bounded _

/-- A number is restored from its unpacked form. -/
theorem ofModel_pack {u : UnpackedFloat} {x : Float} (same : u = x.toModel.unpack) :
    Float.ofModel (.pack u) = x := by
  subst same
  obtain ⟨⟨bits, valid⟩⟩ := x
  simp only [Float.Model.pack, Float.Model.unpack, pack_unpack_of_valid valid]

/-! ### Zeros -/

theorem unpack_of_isPositive {x : Float} (h : isPositive x = true) :
    ∃ m e some, x.toModel.unpack = .finite .positive m e some := by
  simp only [isPositive, Bool.and_eq_true, decide_eq_true_eq] at h
  have positive : (0.0 : Float) < x := h.1
  have compared : (0.0 : Float).toModel.unpack.compare x.toModel.unpack = some .lt := by
    simpa [LT.lt, Float.lt, Float.Model.lt, UnpackedFloat.lt] using positive
  have finite : x.toModel.unpack.isFinite = true := h.2
  rw [unpack_zero] at compared
  generalize x.toModel.unpack = u at compared finite
  cases u with
  | notANumber => cases finite
  | infinity s => cases finite
  | zero s => cases compared
  | finite s m e some =>
    cases s with
    | negative => cases compared
    | positive => exact ⟨m, e, some, rfl⟩

end Unpacking

instance : Neutral Float where
  zero_add_zero := by decide
  add_zero x h := by
    obtain ⟨m, e, some, unpacked⟩ := unpack_of_isPositive h
    have same : UnpackedFloat.add .binary64 x.toModel.unpack (0.0 : Float).toModel.unpack
        = x.toModel.unpack := by
      rw [unpacked, unpack_zero]
      rfl
    exact ofModel_pack same
  sub_zero x h := by
    obtain ⟨m, e, some, unpacked⟩ := unpack_of_isPositive h
    have same : UnpackedFloat.sub .binary64 x.toModel.unpack (0.0 : Float).toModel.unpack
        = x.toModel.unpack := by
      rw [unpacked, unpack_zero]
      rfl
    exact ofModel_pack same
  sub_self x h := by
    obtain ⟨m, e, some, unpacked⟩ := unpack_of_isPositive h
    have none : UnpackedFloat.sub .binary64 x.toModel.unpack x.toModel.unpack
        = (0.0 : Float).toModel.unpack := by
      rw [unpacked, unpack_zero]
      simp only [UnpackedFloat.sub, Int.sub_self]
      rfl
    exact ofModel_pack none
  zero_div x h := by
    obtain ⟨m, e, some, unpacked⟩ := unpack_of_isPositive h
    have none : UnpackedFloat.div .binary64 (0.0 : Float).toModel.unpack x.toModel.unpack
        = (0.0 : Float).toModel.unpack := by
      rw [unpacked, unpack_zero]
      rfl
    exact ofModel_pack none
  zero_percent := by decide

end Scalar.Binary64
end DebrisDisk
