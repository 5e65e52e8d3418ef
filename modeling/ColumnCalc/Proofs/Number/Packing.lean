/-
**Bit patterns and their parts.**

The logical model of binary64 numbers works on signs, mantissas and exponents, this library on signs and
ranks. `Parts.unpack` leads from the second to the first, and through it every operation of the model
can be read as one on ranks:

* `unpack_toModel` — a number is unpacked to its parts.
* `decompose_pack` — what is packed has the parts that it is packed from.
* `decompose_ofRank`, `decompose_injective` — a finite number is its sign and its rank.
* `isFinite_iff` — the finite numbers are those of a rank below infinity's.
-/

import ColumnCalc.Proofs.Number.Nearest

namespace ColumnCalc.Binary64

open Float.Model (Format UnpackedFloat)
open Float.Model.UnpackedFloat (Sign unpackMantissa unpackExponent unpackSign packComponents)

/-! ### The fields of a bit pattern -/

theorem toNat_unpackMantissa (bits : BitVec 64) :
    (@unpackMantissa Format.binary64 bits).toNat = bits.toNat % binadeSize := by
  simp [unpackMantissa, BitVec.extractLsb_toNat, binadeSize]

theorem toNat_unpackExponent (bits : BitVec 64) :
    (@unpackExponent Format.binary64 bits).toNat = bits.toNat / binadeSize % 2048 := by
  simp [unpackExponent, BitVec.extractLsb_toNat, binadeSize, Nat.shiftRight_eq_div_pow]

theorem toNat_unpackSign (bits : BitVec 64) :
    (@unpackSign Format.binary64 bits).toNat = bits.toNat / signBit := by
  have bound := bits.isLt
  unfold unpackSign signBit
  simp only [BitVec.extractLsb_toNat, BitVec.toNat_cast, Nat.shiftRight_eq_div_pow]
  omega

theorem toNat_packComponents (sign : Sign) (exponent : BitVec 11) (mantissa : BitVec 52) :
    (packComponents Format.binary64 sign exponent mantissa).toNat
      = sign.toBitVec.toNat * signBit + exponent.toNat * binadeSize + mantissa.toNat := by
  have smallExponent := exponent.isLt
  have smallMantissa := mantissa.isLt
  simp only [packComponents, BitVec.toNat_append, signBit, binadeSize]
  rw [← Nat.shiftLeft_add_eq_or_of_lt smallExponent, ← Nat.shiftLeft_add_eq_or_of_lt smallMantissa,
    Nat.shiftLeft_eq, Nat.shiftLeft_eq]
  omega

theorem unpackExponent_top (bits : BitVec 64) :
    @unpackExponent Format.binary64 bits = -1#_ ↔ infinityRank ≤ bits.toNat % signBit := by
  have exponent := toNat_unpackExponent bits
  simp only [← BitVec.toNat_inj, exponent, signBit, infinityRank, binadeSize]
  simp
  omega

theorem unpackExponent_zero (bits : BitVec 64) :
    @unpackExponent Format.binary64 bits = 0#_ ↔ bits.toNat % signBit < binadeSize := by
  have exponent := toNat_unpackExponent bits
  simp only [← BitVec.toNat_inj, exponent, signBit, binadeSize]
  simp
  omega

theorem unpackMantissa_zero (bits : BitVec 64) :
    @unpackMantissa Format.binary64 bits = 0#_ ↔ bits.toNat % binadeSize = 0 := by
  simp only [← BitVec.toNat_inj, toNat_unpackMantissa bits]
  simp

/-! ### Parts, unpacked -/

def signOf (negative : Bool) : Sign := if negative then .negative else .positive

/-- Parts as the model has them. -/
def Parts.unpack : Parts → UnpackedFloat
  | .notANumber => .notANumber
  | .infinite negative => .infinity (signOf negative)
  | .finite negative rank =>
    if zero : rank = 0 then .zero (signOf negative)
    else .finite (signOf negative) (mantissaOf rank) (shiftOf rank - 1074) (mantissaOf_pos zero)

/-- The parts of a bit pattern. -/
def partsOf (bits : Nat) : Parts :=
  let negative := decide (signBit ≤ bits)
  let rank := bits % signBit
  if rank < infinityRank then .finite negative rank
  else if rank = infinityRank then .infinite negative
  else .notANumber

theorem sign_unpackSign (bits : BitVec 64) :
    Sign.ofBitVec (@unpackSign Format.binary64 bits) = signOf (decide (signBit ≤ bits.toNat)) := by
  have sign := toNat_unpackSign bits
  have bound := bits.isLt
  unfold Sign.ofBitVec signOf
  simp only [← BitVec.toNat_inj, sign, signBit]
  by_cases negative : 0x8000000000000000 ≤ bits.toNat
  · simp [negative]
  · simp [negative]

theorem Parts.unpack_zero (negative : Bool) :
    Parts.unpack (.finite negative 0) = .zero (signOf negative) := rfl

theorem Parts.unpack_positive (negative : Bool) {rank : Nat} (positive : rank ≠ 0) :
    Parts.unpack (.finite negative rank)
      = .finite (signOf negative) (mantissaOf rank) (shiftOf rank - 1074) (mantissaOf_pos positive) :=
  dif_neg positive

/-- **A bit pattern is unpacked to its parts.** -/
theorem unpack_eq (bits : BitVec 64) :
    UnpackedFloat.unpack Format.binary64 bits = (partsOf bits.toNat).unpack := by
  have mantissa := toNat_unpackMantissa bits
  have exponent := toNat_unpackExponent bits
  have bias : Format.binary64.exponentBias = 1023 := rfl
  have isEmpty := unpackMantissa_zero bits
  unfold UnpackedFloat.unpack partsOf
  dsimp only
  rw [sign_unpackSign]
  by_cases top : infinityRank ≤ bits.toNat % signBit
  · rw [if_pos ((unpackExponent_top bits).2 top), if_neg (Nat.not_lt.2 top)]
    by_cases isInfinity : bits.toNat % signBit = infinityRank
    · have fraction : bits.toNat % binadeSize = 0 := by
        unfold signBit infinityRank binadeSize at *
        omega
      rw [if_pos (isEmpty.2 fraction), if_pos isInfinity]
      rfl
    · have fraction : bits.toNat % binadeSize ≠ 0 := by
        unfold signBit infinityRank binadeSize at *
        omega
      rw [if_neg (fun empty => fraction (isEmpty.1 empty)), if_neg isInfinity]
      rfl
  · rw [if_neg (fun filled => top ((unpackExponent_top bits).1 filled)), if_pos (Nat.not_le.1 top)]
    by_cases subnormal : bits.toNat % signBit < binadeSize
    · rw [if_pos ((unpackExponent_zero bits).2 subnormal)]
      by_cases zero : bits.toNat % signBit = 0
      · have fraction : bits.toNat % binadeSize = 0 := by
          unfold signBit binadeSize at *
          omega
        rw [dif_pos (isEmpty.2 fraction), zero, Parts.unpack_zero]
      · have fraction : bits.toNat % binadeSize ≠ 0 := by
          unfold signBit binadeSize at *
          omega
        rw [dif_neg (fun empty => fraction (isEmpty.1 empty)), Parts.unpack_positive _ zero,
          UnpackedFloat.finite.injEq]
        refine ⟨rfl, ?_, ?_⟩
        · rw [mantissa]
          unfold mantissaOf shiftOf signBit binadeSize at *
          omega
        · rw [exponent, bias]
          unfold shiftOf signBit binadeSize at *
          omega
    · have positive : bits.toNat % signBit ≠ 0 := by
        unfold binadeSize at *
        omega
      rw [if_neg (fun empty => subnormal ((unpackExponent_zero bits).1 empty)),
        Parts.unpack_positive _ positive, UnpackedFloat.finite.injEq]
      refine ⟨rfl, ?_, ?_⟩
      · have small := (@unpackMantissa Format.binary64 bits).isLt
        rw [BitVec.toNat_append, ← Nat.shiftLeft_add_eq_or_of_lt small, mantissa]
        unfold mantissaOf shiftOf signBit binadeSize at *
        simp only [BitVec.toNat_ofNat, Nat.shiftLeft_eq]
        omega
      · rw [exponent, bias]
        unfold shiftOf signBit binadeSize at *
        omega

/-- **A number is unpacked to its parts.** -/
theorem unpack_toModel (value : Float) : value.toModel.unpack = (decompose value).unpack :=
  unpack_eq value.toModel.toBits.toBitVec

/-! ### Parts, packed -/

/-- Finite parts have a finite magnitude's rank. -/
def Parts.Valid : Parts → Prop
  | .finite _ rank => rank < infinityRank
  | _ => True

/-- The bit pattern of a sign and a rank. -/
def signedPattern (negative : Bool) (rank : Nat) : Nat :=
  if negative then signBit + rank else rank

/-- The bit pattern of parts. -/
def Parts.pattern : Parts → Nat
  | .notANumber => infinityRank + binadeSize / 2
  | .infinite negative => signedPattern negative infinityRank
  | .finite negative rank => signedPattern negative rank

theorem valid_partsOf (bits : Nat) : (partsOf bits).Valid := by
  simp only [partsOf]
  split
  · assumption
  · split
    · trivial
    · trivial

theorem partsOf_pattern {parts : Parts} (valid : parts.Valid) : partsOf parts.pattern = parts := by
  cases parts with
  | notANumber => decide
  | infinite negative => cases negative <;> decide
  | finite negative rank =>
    have small : rank < infinityRank := valid
    have isRank : signedPattern negative rank % signBit = rank := by
      unfold signedPattern signBit infinityRank binadeSize at *
      split <;> omega
    have isSign : decide (signBit ≤ signedPattern negative rank) = negative := by
      unfold signedPattern signBit infinityRank binadeSize at *
      cases negative with
      | false =>
        rw [decide_eq_false_iff_not]
        simp only [Bool.false_eq_true, if_false]
        omega
      | true =>
        rw [decide_eq_true_eq]
        simp only [if_true]
        omega
    show partsOf (signedPattern negative rank) = .finite negative rank
    simp only [partsOf, isRank, if_pos small, isSign]

theorem toNat_sign (negative : Bool) :
    (signOf negative).toBitVec.toNat = if negative then 1 else 0 := by
  cases negative with
  | false => rfl
  | true => rfl

theorem log2_mantissa {mantissa : Nat} (small : mantissa < 2 * binadeSize) :
    mantissa.log2 + 1 = 53 ↔ binadeSize ≤ mantissa := by
  unfold binadeSize at *
  by_cases zero : mantissa = 0
  · subst zero
    decide
  · have lower := Nat.le_log2 zero (k := 52)
    have upper := Nat.log2_lt zero (k := 53)
    omega

/-- **Packing a mantissa of at most 53 bits**, with fewer only where the step is not yet doubled. -/
theorem toNat_pack_finite (negative : Bool) {mantissa shift : Nat} (positive : 0 < mantissa)
    (small : mantissa < 2 * binadeSize) (canonical : shift = 0 ∨ binadeSize ≤ mantissa) :
    (UnpackedFloat.pack Format.binary64
        (.finite (signOf negative) mantissa (shift - 1074) positive)).toNat
      = signedPattern negative (min infinityRank (shift * binadeSize + mantissa)) := by
  have bias : Format.binary64.exponentBias = 1023 := rfl
  have exponent : ((shift : Int) - 1074 + (1023 : Nat) + (52 : Nat)).toNat = shift + 1 := by omega
  have width : Format.binary64.mantissaBits = 53 := rfl
  have isNormal := log2_mantissa small
  unfold UnpackedFloat.pack
  dsimp only
  rw [bias, exponent, width]
  by_cases top : 2 ^ 11 ≤ shift + 1 + 1
  · have atInfinity : min infinityRank (shift * binadeSize + mantissa) = infinityRank := by
      unfold infinityRank binadeSize at *
      omega
    rw [if_pos top, atInfinity]
    cases negative <;> rfl
  · have isRank : min infinityRank (shift * binadeSize + mantissa)
        = shift * binadeSize + mantissa := by
      unfold infinityRank binadeSize at *
      omega
    rw [if_neg top, isRank]
    by_cases normal : binadeSize ≤ mantissa
    · rw [if_pos (isNormal.2 normal), toNat_packComponents, toNat_sign, BitVec.toNat_ofNat,
        BitVec.toNat_ofNat]
      unfold signedPattern binadeSize at *
      cases negative
      · simp only [Bool.false_eq_true, if_false]
        omega
      · simp only [if_true]
        omega
    · rw [if_neg (fun same => normal (isNormal.1 same)), toNat_packComponents, toNat_sign,
        BitVec.toNat_ofNat, BitVec.toNat_ofNat]
      unfold signedPattern binadeSize at *
      cases negative
      · simp only [Bool.false_eq_true, if_false]
        omega
      · simp only [if_true]
        omega

/-- **Parts are packed to their pattern.** -/
theorem toNat_pack {parts : Parts} (valid : parts.Valid) :
    (UnpackedFloat.pack Format.binary64 parts.unpack).toNat = parts.pattern := by
  cases parts with
  | notANumber => rfl
  | infinite negative => cases negative <;> rfl
  | finite negative rank =>
    have small : rank < infinityRank := valid
    by_cases zero : rank = 0
    · subst zero
      cases negative <;> rfl
    · rw [Parts.unpack_positive negative zero,
        toNat_pack_finite negative _ (mantissaOf_lt rank) (shiftOf_canonical rank),
        shiftOf_add_mantissaOf, Nat.min_eq_right (Nat.le_of_lt small)]
      rfl

/-- **A packed number has the parts that it is packed from.** -/
theorem decompose_pack {parts : Parts} (valid : parts.Valid) :
    decompose (.ofModel (.pack parts.unpack)) = parts := by
  show partsOf (UnpackedFloat.pack Format.binary64 parts.unpack).toNat = parts
  rw [toNat_pack valid, partsOf_pattern valid]

/-! ### Numbers and their parts -/

/-- A number of a bit pattern has the parts of that pattern. -/
theorem decompose_ofBits (bits : UInt64) :
    decompose (Float.ofBits bits) = partsOf bits.toNat := by
  show decompose (.ofModel (.pack (UnpackedFloat.unpack Format.binary64 bits.toBitVec))) = _
  rw [unpack_eq]
  exact decompose_pack (valid_partsOf _)

theorem decompose_ofPattern {parts : Parts} (valid : parts.Valid) :
    decompose (Float.ofBits (UInt64.ofNat parts.pattern)) = parts := by
  have small : parts.pattern < 2 ^ 64 := by
    rw [← toNat_pack valid]
    exact (UnpackedFloat.pack Format.binary64 parts.unpack).isLt
  rw [decompose_ofBits, UInt64.toNat_ofNat_of_lt' small, partsOf_pattern valid]

/-- **The number of a sign and a rank has that sign and rank.** -/
theorem decompose_ofRank (negative : Bool) {rank : Nat} (small : rank < infinityRank) :
    decompose (ofRank negative rank) = .finite negative rank :=
  @decompose_ofPattern (.finite negative rank) small

theorem decompose_ofRank_infinity (negative : Bool) :
    decompose (ofRank negative infinityRank) = .infinite negative :=
  @decompose_ofPattern (.infinite negative) trivial

theorem signedPattern_mod {bits : Nat} (bound : bits < UInt64.size) :
    signedPattern (decide (signBit ≤ bits)) (bits % signBit) = bits := by
  unfold UInt64.size at bound
  unfold signedPattern signBit
  by_cases negative : 0x8000000000000000 ≤ bits
  · simp only [negative, decide_true, if_true]
    omega
  · simp only [negative, decide_false, Bool.false_eq_true, if_false]
    omega

/-- A number has the pattern of its parts; of the patterns that are not a number only one is used. -/
theorem pattern_decompose (value : Float) : (decompose value).pattern = value.toBits.toNat := by
  have bound : value.toBits.toNat < UInt64.size := value.toBits.toBitVec.isLt
  have whole := signedPattern_mod bound
  show (partsOf value.toBits.toNat).pattern = value.toBits.toNat
  simp only [partsOf]
  split
  · exact whole
  · rename_i notFinite
    split
    · rename_i atInfinity
      rw [atInfinity] at whole
      exact whole
    · rename_i behindInfinity
      have top := (unpackExponent_top value.toBits.toBitVec).2 (Nat.not_lt.1 notFinite)
      have filled : ¬ @unpackMantissa Format.binary64 value.toBits.toBitVec = 0#_ := by
        intro isEmpty
        have noFraction : value.toBits.toNat % binadeSize = 0 :=
          (unpackMantissa_zero value.toBits.toBitVec).1 isEmpty
        unfold infinityRank signBit binadeSize at *
        omega
      have canonical := value.toModel.valid.eq_packedNaN top filled
      show infinityRank + binadeSize / 2 = value.toModel.toBits.toBitVec.toNat
      rw [canonical]
      rfl

/-- Numbers of the same parts are the same. -/
theorem decompose_injective {first second : Float} (same : decompose first = decompose second) :
    first = second := by
  have sameBits : first.toBits = second.toBits := by
    rw [← UInt64.toNat_inj, ← pattern_decompose first, ← pattern_decompose second, same]
  obtain ⟨⟨bits, _⟩⟩ := first
  obtain ⟨⟨otherBits, _⟩⟩ := second
  have equal : bits = otherBits := sameBits
  subst equal
  rfl

theorem isFinite_iff (value : Float) :
    value.isFinite = true ↔ ∃ negative rank, decompose value = .finite negative rank := by
  have unpacked : value.isFinite = (decompose value).unpack.isFinite := by
    rw [← unpack_toModel]
    rfl
  rw [unpacked]
  cases decompose value with
  | notANumber => exact ⟨fun isFinite => (nomatch isFinite), fun ⟨_, _, same⟩ => nomatch same⟩
  | infinite negative => exact ⟨fun isFinite => (nomatch isFinite), fun ⟨_, _, same⟩ => nomatch same⟩
  | finite negative rank =>
    refine ⟨fun _ => ⟨negative, rank, rfl⟩, ?_⟩
    intro _
    by_cases zero : rank = 0
    · rw [zero]
      rfl
    · rw [Parts.unpack_positive negative zero]
      rfl

theorem isFinite_of_decompose {value : Float} {negative : Bool} {rank : Nat}
    (isValue : decompose value = .finite negative rank) : value.isFinite = true :=
  (isFinite_iff value).2 ⟨negative, rank, isValue⟩

theorem not_isFinite_of_infinite {value : Float} {negative : Bool}
    (isInfinite : decompose value = .infinite negative) : ¬ value.isFinite = true := by
  intro isFinite
  obtain ⟨_, _, isValue⟩ := (isFinite_iff value).1 isFinite
  rw [isInfinite] at isValue
  cases isValue

/-- There is one infinity of each sign. -/
theorem eq_ofRank_infinity {value : Float} {negative : Bool}
    (isInfinite : decompose value = .infinite negative) : value = ofRank negative infinityRank :=
  decompose_injective (isInfinite.trans (decompose_ofRank_infinity negative).symm)

end ColumnCalc.Binary64
