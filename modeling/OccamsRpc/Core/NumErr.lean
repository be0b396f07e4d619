import OccamsRpc.Core.Error
/-!
# Errors that are numbers

A number travels as the `u32` of an `EncodedErr`. `decode` takes it back if it is at
most `$t::max as u32`. `max` there is the method of `Ord`, not the constant `MAX`: what
is cast is a function, and the number is the lower half of its address, which can be
any.
-/

namespace OccamsRpc

namespace RpcErrCodec

variable (C : Type)

/-- The macro, with the casts of the type: `*self as u32` and `i as Self`. -/
@[reducible] def impl_rpc_error_for_num {E : Type} (as_u32 : E → UInt32) (as_self : UInt32 → E)
    (max : UInt32) : RpcErrCodec C E where
  encode _ self := .Num (as_u32 self)
  decode
    | _, .inl i => if i ≤ max then some (as_self i) else none
    | _, .inr _ => none

-- a signed number is sign-extended on the way out, and every narrowing drops the high bits
@[reducible] def i8 (max : UInt32) : RpcErrCodec C Int8 :=
  impl_rpc_error_for_num C (fun e => e.toInt32.toUInt32) (fun i => i.toUInt8.toInt8) max

@[reducible] def u8 (max : UInt32) : RpcErrCodec C UInt8 :=
  impl_rpc_error_for_num C UInt8.toUInt32 UInt32.toUInt8 max

@[reducible] def i16 (max : UInt32) : RpcErrCodec C Int16 :=
  impl_rpc_error_for_num C (fun e => e.toInt32.toUInt32) (fun i => i.toUInt16.toInt16) max

@[reducible] def u16 (max : UInt32) : RpcErrCodec C UInt16 :=
  impl_rpc_error_for_num C UInt16.toUInt32 UInt32.toUInt16 max

@[reducible] def i32 (max : UInt32) : RpcErrCodec C Int32 :=
  impl_rpc_error_for_num C Int32.toUInt32 UInt32.toInt32 max

@[reducible] def u32 (max : UInt32) : RpcErrCodec C UInt32 := impl_rpc_error_for_num C id id max

end RpcErrCodec

/-- What nix says of its `Errno`: a `repr(i32)` enumeration of the platform's error
numbers, and `UnknownErrno` for all the others. -/
structure NixErrno where
  Errno : Type
  UnknownErrno : Errno
  /-- `e as i32` -/
  code : Errno → Int32
  from_raw : Int32 → Errno
  code_unknown : code UnknownErrno = 0
  from_raw_code : ∀ e, from_raw (code e) = e
  from_raw_unknown : ∀ i, (∀ e, code e ≠ i) → from_raw i = UnknownErrno

/-- A `nix` errno goes as its number, and back if the number is one. -/
@[reducible] def RpcErrCodec.errno (C : Type) (nix : NixErrno) (max : UInt32) :
    RpcErrCodec C nix.Errno where
  encode _ self := .Num (nix.code self).toUInt32
  decode
    | _, .inl i => if i ≤ max then some (nix.from_raw i.toInt32) else none
    | _, .inr _ => none

/-- What the codec of a numeric type is for: every value comes back, and a number that
is the code of none is rejected. -/
structure CodesSurvive {C E : Type} (num : RpcErrCodec C E) (codec : C) : Prop where
  round_trip : ∀ e, ∃ n, num.encode codec e = .Num n ∧ num.decode codec (.inl n) = some e
  exact : ∀ n v, num.decode codec (.inl n) = some v → num.encode codec v = .Num n

/-! ## For which addresses that is so -/

theorem le_last (n : UInt32) : n ≤ 0xFFFFFFFF :=
  UInt32.le_iff_toNat_le.2 (Nat.le_of_lt_succ n.toNat_lt)

section
variable {C E : Type} {as_u32 : E → UInt32} {as_self : UInt32 → E}

/-- The codes have to be the numbers up to the address. -/
theorem codesSurvive_iff (hinv : ∀ e, as_self (as_u32 e) = e) (max : UInt32) (codec : C) :
    CodesSurvive (RpcErrCodec.impl_rpc_error_for_num C as_u32 as_self max) codec ↔
      ∀ n, n ≤ max ↔ as_u32 (as_self n) = n := by
  constructor
  · intro h n
    constructor
    · intro hn
      exact EncodedErr.Num.inj (h.exact n (as_self n) (if_pos hn))
    · intro hcode
      obtain ⟨m, henc, hdec⟩ := h.round_trip (as_self n)
      cases henc
      rw [hcode] at hdec
      by_contra hn
      cases (if_neg hn).symm.trans hdec
  · intro h
    constructor
    · intro e
      refine ⟨as_u32 e, rfl, ?_⟩
      have hle : as_u32 e ≤ max := (h _).2 (by rw [hinv])
      exact (if_pos hle).trans (by rw [hinv])
    · intro n v hdec
      by_cases hn : n ≤ max
      · cases (if_pos hn).symm.trans hdec
        exact congrArg EncodedErr.Num ((h n).1 hn)
      · cases (if_neg hn).symm.trans hdec

/-- A type with a code that goes to the end, and a number that is no code. -/
theorem not_codesSurvive (hinv : ∀ e, as_self (as_u32 e) = e) {e : E} (he : as_u32 e = 0xFFFFFFFF)
    {n : UInt32} (hn : as_u32 (as_self n) ≠ n) (max : UInt32) (codec : C) :
    ¬ CodesSurvive (RpcErrCodec.impl_rpc_error_for_num C as_u32 as_self max) codec := by
  rw [codesSurvive_iff hinv]
  intro h
  have hmax : (0xFFFFFFFF : UInt32) ≤ max := (h _).2 (by rw [← he, hinv])
  exact hn ((h n).1 (UInt32.le_trans (le_last n) hmax))

/-- A type whose codes are the numbers up to `last`. -/
theorem codesSurvive_iff_eq (hinv : ∀ e, as_self (as_u32 e) = e) {last : UInt32}
    (hcodes : ∀ n, as_u32 (as_self n) = n ↔ n ≤ last) (max : UInt32) (codec : C) :
    CodesSurvive (RpcErrCodec.impl_rpc_error_for_num C as_u32 as_self max) codec ↔ max = last := by
  rw [codesSurvive_iff hinv]
  constructor
  · intro h
    refine UInt32.le_antisymm ?_ ?_
    · exact (hcodes _).1 ((h max).1 (UInt32.le_refl _))
    · exact (h last).2 ((hcodes _).2 (UInt32.le_refl _))
  · rintro rfl n
    exact (hcodes n).symm

end

/-! ## The types -/

theorem i8_as_self (e : Int8) : e.toInt32.toUInt32.toUInt8.toInt8 = e := by
  have hcast : e.toInt32.toUInt32.toUInt8.toInt8 = e.toInt32.toInt8 := by
    rw [← Int8.toBitVec_inj, Int32.toBitVec_toInt8, BitVec.signExtend_eq_setWidth_of_le _ (by decide)]
    rfl
  rw [hcast, Int8.toInt8_toInt32]

theorem i16_as_self (e : Int16) : e.toInt32.toUInt32.toUInt16.toInt16 = e := by
  have hcast : e.toInt32.toUInt32.toUInt16.toInt16 = e.toInt32.toInt16 := by
    rw [← Int16.toBitVec_inj, Int32.toBitVec_toInt16, BitVec.signExtend_eq_setWidth_of_le _ (by decide)]
    rfl
  rw [hcast, Int16.toInt16_toInt32]

theorem u8_codes (n : UInt32) : n.toUInt8.toUInt32 = n ↔ n ≤ 255 := by
  rw [← UInt32.toNat_inj, UInt32.le_iff_toNat_le, UInt8.toNat_toUInt32, UInt32.toNat_toUInt8]
  show n.toNat % 256 = n.toNat ↔ n.toNat ≤ 255
  omega

theorem u16_codes (n : UInt32) : n.toUInt16.toUInt32 = n ↔ n ≤ 65535 := by
  rw [← UInt32.toNat_inj, UInt32.le_iff_toNat_le, UInt16.toNat_toUInt32, UInt32.toNat_toUInt16]
  show n.toNat % 65536 = n.toNat ↔ n.toNat ≤ 65535
  omega

section
variable {C : Type} (codec : C)

theorem not_codesSurvive_i8 (max : UInt32) : ¬ CodesSurvive (RpcErrCodec.i8 C max) codec :=
  -- 128 is taken for -128
  not_codesSurvive (e := -1) i8_as_self (by decide) (n := 128) (by decide) max codec

theorem not_codesSurvive_i16 (max : UInt32) : ¬ CodesSurvive (RpcErrCodec.i16 C max) codec :=
  not_codesSurvive (e := -1) i16_as_self (by decide) (n := 32768) (by decide) max codec

theorem codesSurvive_u8 (max : UInt32) : CodesSurvive (RpcErrCodec.u8 C max) codec ↔ max = 255 :=
  codesSurvive_iff_eq (fun e => UInt8.toUInt8_toUInt32 e) u8_codes max codec

theorem codesSurvive_u16 (max : UInt32) :
    CodesSurvive (RpcErrCodec.u16 C max) codec ↔ max = 65535 :=
  codesSurvive_iff_eq (fun e => UInt16.toUInt16_toUInt32 e) u16_codes max codec

theorem codesSurvive_i32 (max : UInt32) :
    CodesSurvive (RpcErrCodec.i32 C max) codec ↔ max = 0xFFFFFFFF :=
  codesSurvive_iff_eq Int32.toInt32_toUInt32
    (fun n => ⟨fun _ => le_last n, fun _ => UInt32.toUInt32_toInt32 n⟩) max codec

theorem codesSurvive_u32 (max : UInt32) :
    CodesSurvive (RpcErrCodec.u32 C max) codec ↔ max = 0xFFFFFFFF :=
  codesSurvive_iff_eq (fun _ => rfl) (fun n => ⟨fun _ => le_last n, fun _ => rfl⟩) max codec

/-- `n` is one of the platform's error numbers, or 0. -/
def NixErrno.Assigned (nix : NixErrno) (n : UInt32) : Prop := ∃ e, (nix.code e).toUInt32 = n

theorem codesSurvive_errno (nix : NixErrno) (max : UInt32) :
    CodesSurvive (RpcErrCodec.errno C nix max) codec ↔ ∀ n, n ≤ max ↔ nix.Assigned n := by
  have hinv : ∀ e, nix.from_raw (nix.code e).toUInt32.toInt32 = e := by
    intro e
    rw [Int32.toInt32_toUInt32, nix.from_raw_code]
  have hassigned : ∀ n : UInt32, (nix.code (nix.from_raw n.toInt32)).toUInt32 = n ↔
      nix.Assigned n := by
    intro n
    constructor
    · intro h
      exact ⟨_, h⟩
    · rintro ⟨e, rfl⟩
      rw [hinv]
  have h : CodesSurvive (RpcErrCodec.errno C nix max) codec ↔
      ∀ n : UInt32, n ≤ max ↔
        (nix.code (nix.from_raw n.toInt32)).toUInt32 = n := codesSurvive_iff hinv max codec
  simp only [h, hassigned]

/-- Which address makes each type's codes survive: none for the narrow signed types,
and the greatest code for the others, if the codes are the numbers up to it. -/
theorem num_codes_survive_iff (nix : NixErrno) (max : UInt32) :
    ¬ CodesSurvive (RpcErrCodec.i8 C max) codec ∧
    (CodesSurvive (RpcErrCodec.u8 C max) codec ↔ max = 255) ∧
    ¬ CodesSurvive (RpcErrCodec.i16 C max) codec ∧
    (CodesSurvive (RpcErrCodec.u16 C max) codec ↔ max = 65535) ∧
    (CodesSurvive (RpcErrCodec.i32 C max) codec ↔ max = 0xFFFFFFFF) ∧
    (CodesSurvive (RpcErrCodec.u32 C max) codec ↔ max = 0xFFFFFFFF) ∧
    (CodesSurvive (RpcErrCodec.errno C nix max) codec ↔ ∀ n, n ≤ max ↔ nix.Assigned n) :=
  ⟨not_codesSurvive_i8 codec max, codesSurvive_u8 codec max, not_codesSurvive_i16 codec max,
    codesSurvive_u16 codec max,
    codesSurvive_i32 codec max, codesSurvive_u32 codec max, codesSurvive_errno codec nix max⟩

end

/-- With some address: -1 does not come back, and 256 is taken for 0. -/
theorem i8_codes_lost :
    let i8 := RpcErrCodec.i8 Unit 0x5F3A10
    i8.encode () (-1) = .Num 0xFFFFFFFF ∧ i8.decode () (.inl 0xFFFFFFFF) = none ∧
      i8.decode () (.inl 256) = some 0 ∧ i8.encode () 0 = .Num 0 ∧ ¬ CodesSurvive i8 () := by
  refine ⟨by decide, by decide, by decide, by decide, fun h => ?_⟩
  obtain ⟨n, henc, hdec⟩ := h.round_trip (-1)
  cases henc
  cases hdec

/-- The error numbers of Linux go up to 133; 41 and 58 are not used. -/
def NixErrno.linux : NixErrno where
  Errno := { n : Nat // n < 134 ∧ n ≠ 41 ∧ n ≠ 58 }
  UnknownErrno := ⟨0, by decide⟩
  code e := Int32.ofNat e
  from_raw i :=
    if h : i.toInt.toNat < 134 ∧ i.toInt.toNat ≠ 41 ∧ i.toInt.toNat ≠ 58
      then ⟨i.toInt.toNat, h⟩ else ⟨0, by decide⟩
  code_unknown := rfl
  from_raw_code := by
    rintro ⟨n, hn⟩
    have hint : (Int32.ofNat n).toInt.toNat = n := by
      rw [toInt_ofNat_i32.2 (Nat.le_trans (Nat.le_of_lt hn.1) (by decide)), Int.toNat_natCast]
    simp only [hint, dif_pos hn]
  from_raw_unknown := by
    intro i hi
    split
    case isTrue h =>
      -- only a negative number is not given back by its code
      by_cases hneg : i.toInt < 0
      · refine Subtype.ext ?_
        show i.toInt.toNat = 0
        omega
      · refine absurd ?_ (hi ⟨i.toInt.toNat, h⟩)
        have hint : (Int32.ofNat i.toInt.toNat).toInt = i.toInt := by
          rw [toInt_ofNat_i32.2 (Nat.le_trans (Nat.le_of_lt h.1) (by decide))]
          omega
        exact Int32.toInt_inj.1 hint
    case isFalse => rfl

theorem num_codes_survive_iff_linux :
    (∀ max, ¬ CodesSurvive (RpcErrCodec.errno Unit .linux max) ()) ∧
      CodesSurvive (RpcErrCodec.u8 Unit 255) () := by
  refine ⟨fun max h => ?_, (num_codes_survive_iff () .linux 255).2.1.2 rfl⟩
  have hcodes := (num_codes_survive_iff () .linux max).2.2.2.2.2.2.1 h
  have hlast : (133 : UInt32) ≤ max := (hcodes 133).2 ⟨⟨133, by decide⟩, by decide⟩
  -- below the greatest error number there is one that is not used
  obtain ⟨⟨n, hn⟩, hcode⟩ := (hcodes 41).1 (UInt32.le_trans (by decide) hlast)
  have hcode : (Int32.ofNat n).toUInt32 = 41 := hcode
  have hint : (Int32.ofNat n).toInt = 41 := by
    rw [← Int32.toInt32_toUInt32 (Int32.ofNat n), hcode]
    rfl
  rw [toInt_ofNat_i32.2 (Nat.le_trans (Nat.le_of_lt hn.1) (by decide))] at hint
  omega

end OccamsRpc
