import AuroraBn128.AddMul
import AuroraBn128.PairContract
import Mathlib.Algebra.PUnitInstances.Algebra

/-!
# aurora-engine bn128: the three precompiles as a whole

`BN128Add::run`, `BN128Mul::run` and `BN128Pair::run` over every fork, every
input and every gas limit: what each can return, and what none of them can do.

**Results.**
* `precompiles_never_panic`: no fork, input or gas limit makes a precompile panic;
  every element the pairing loop decodes, and every lane of it, lies inside the
  input.
* `precompile_errors`: the errors of each precompile, by message.
* `precompile_outputs`: an `Ok` of ECADD or ECMUL carries 64 bytes, one of
  ECPAIRING 32 bytes, each with status `Returned` and cost field `0`;
  `pair_run_output_bit`: the word of ECPAIRING is `0` or `1`.
* `pair_run_gas`: the gate of ECPAIRING in exact arithmetic,
  `per_point · len / 192 + base`, wherever `per_point · len` fits in a `u64`;
  `pair_run_gas_whole_elements`: on `n` whole elements that is
  `base + per_point · n`, the price of the forks.
* `BN128Pair.run_short_input_out_of_gas`: the code charges
  `per_point · len / 192 + base` rather than `base + per_point · ⌊len / 192⌋`, and
  on an input that is not whole elements the two differ.
-/

namespace AuroraBn128

open RustResult

section Runs

variable {G2 Gt : Type} [CommMonoid Gt] [DecidableEq Gt] (bn : Bn G2 Gt)

/-- No precompile panics, whatever the fork, the input and the gas limit: every
slice and every `copy_from_slice` is in range.  In particular the pairing loop
decodes every element `idx < len / 192` without a panic, and the end of each of
its six lanes is at most the input length, so no index overflows a `usize`. -/
theorem precompiles_never_panic (fork : HardFork) (x : Bytes) (g : UInt64) :
    BN128Add.run bn fork x g ≠ panic ∧ BN128Mul.run bn fork x g ≠ panic ∧
    BN128Pair.run bn fork x g ≠ panic ∧
    ∀ idx < x.length / Consts.pairElementLen,
      BN128Pair.decodeElement bn x idx ≠ panic ∧
      ∀ k < 6, idx * Consts.pairElementLen + 32 * k + 32 ≤ x.length := by
  refine ⟨?_, ?_, ?_, fun idx hidx => ?_⟩
  · cases fork <;> exact gasGate_ne_panic (BN128Add.runInner_ne_panic bn x)
  · cases fork <;> exact gasGate_ne_panic (BN128Mul.runInner_ne_panic bn x)
  · cases fork <;> exact gasGate_ne_panic (BN128Pair.runInner_ne_panic bn x)
  · simp only [Consts.pairElementLen] at hidx ⊢
    exact ⟨BN128Pair.decodeElement_ne_panic bn (by omega), fun k hk => by omega⟩

/-- The errors of each precompile: `OutOfGas` from the gate, then the messages
of its decoders. -/
theorem precompile_errors (fork : HardFork) (x : Bytes) (g : UInt64) :
    ErrorsIn (· ∈ .OutOfGas :: readPointErrors) (BN128Add.run bn fork x g) ∧
    ErrorsIn (· ∈ .OutOfGas :: .Other "invalid field element" :: readPointErrors)
      (BN128Mul.run bn fork x g) ∧
    ErrorsIn (· ∈ .OutOfGas :: .Other "input length invalid, must be multiple of 192" ::
      BN128Pair.elementErrors) (BN128Pair.run bn fork x g) := by
  have hcons : ∀ {l : List ExitError} e, e ∈ l → e ∈ ExitError.OutOfGas :: l :=
    fun _ => List.mem_cons_of_mem _
  cases fork <;>
    exact ⟨errorsIn_gasGate (List.mem_cons_self _ _) ((BN128Add.errorsIn_runInner bn x).mono hcons),
      errorsIn_gasGate (List.mem_cons_self _ _) ((BN128Mul.errorsIn_runInner bn x).mono hcons),
      errorsIn_gasGate (List.mem_cons_self _ _) ((BN128Pair.errorsIn_runInner_all bn x).mono hcons)⟩

/-- Every `Ok` of a precompile has status `Returned` and cost field `0`, with a
64-byte point from ECADD and ECMUL and a 32-byte word from ECPAIRING. -/
theorem precompile_outputs (fork : HardFork) (x : Bytes) (g : UInt64)
    (out : ExitSucceed × Bytes × UInt64) :
    (BN128Add.run bn fork x g = ok out → out.1 = .Returned ∧ out.2.1.length = 64 ∧ out.2.2 = 0) ∧
    (BN128Mul.run bn fork x g = ok out → out.1 = .Returned ∧ out.2.1.length = 64 ∧ out.2.2 = 0) ∧
    (BN128Pair.run bn fork x g = ok out →
      out.1 = .Returned ∧ out.2.1.length = 32 ∧ out.2.2 = 0) := by
  refine ⟨fun h => ?_, fun h => ?_, fun h => ?_⟩
  · obtain ⟨p, rfl⟩ := BN128Add.runInner_eq_ok bn (by cases fork <;> exact gasGate_eq_ok h)
    exact ⟨rfl, length_encodeG1 p, rfl⟩
  · obtain ⟨p, rfl⟩ := BN128Mul.runInner_eq_ok bn (by cases fork <;> exact gasGate_eq_ok h)
    exact ⟨rfl, length_encodeG1 p, rfl⟩
  · obtain ⟨v, -, rfl⟩ := BN128Pair.runInner_eq_ok bn (by cases fork <;> exact gasGate_eq_ok h)
    exact ⟨rfl, length_toBigEndian v, rfl⟩

/-- ECPAIRING answers with the 32-byte word of `0` or of `1` and with nothing else. -/
theorem pair_run_output_bit (fork : HardFork) (x : Bytes) (g : UInt64)
    (out : ExitSucceed × Bytes × UInt64) (h : BN128Pair.run bn fork x g = ok out) :
    out.2.1 = toBigEndian 0 ∨ out.2.1 = toBigEndian 1 := by
  obtain ⟨v, hv, rfl⟩ := BN128Pair.runInner_eq_ok bn (by cases fork <;> exact gasGate_eq_ok h)
  rcases hv with rfl | rfl
  · exact .inl rfl
  · exact .inr rfl

set_option maxRecDepth 2000 in
/-- The element of the generator `(1, 2)`, with `flatBn`, whose pairing is `2`
there: the call decodes the element, reaches the pairing check and answers `0`. -/
theorem pair_run_output_bit_generator :
    BN128Pair.run flatBn .Byzantium (toBigEndian 1 ++ toBigEndian 2 ++ List.replicate 128 0 : Bytes) 200000 =
      ok (.Returned, toBigEndian 0, 0) ∧
    ((ExitSucceed.Returned, toBigEndian 0, (0 : UInt64)).2.1 = toBigEndian 0 ∨
      (ExitSucceed.Returned, toBigEndian 0, (0 : UInt64)).2.1 = toBigEndian 1) :=
  have h : BN128Pair.run flatBn .Byzantium (toBigEndian 1 ++ toBigEndian 2 ++ List.replicate 128 0 : Bytes) 200000 =
      ok (.Returned, toBigEndian 0, 0) := by decide
  ⟨h, pair_run_output_bit flatBn .Byzantium _ 200000 _ h⟩

end Runs

section Gas

/-- The pairing price in exact arithmetic, when neither `per_point · len` nor the
sum wraps. -/
theorem pairGas_toNat (perPoint base : UInt64) (input : Bytes) (hlen : input.length < 2 ^ 64)
    (hmul : perPoint.toNat * input.length < 2 ^ 64)
    (hadd : perPoint.toNat * input.length / 192 + base.toNat < 2 ^ 64) :
    (BN128Pair.pairGas perPoint base input).toNat =
      perPoint.toNat * input.length / 192 + base.toNat := by
  have hx : input.length.toUInt64.toNat = input.length := UInt64.toNat_ofNat_of_lt hlen
  have h192 : Consts.pairElementLen.toUInt64.toNat = 192 := rfl
  rw [BN128Pair.pairGas, toNat_add_u64, UInt64.toNat_div, toNat_mul_u64, hx, h192,
    Nat.mod_eq_of_lt hmul, Nat.mod_eq_of_lt hadd]

/-- The gate of the pairing price, for a positive per-point price, a base below
`2^63` and a length whose product with the per-point price fits in a `u64`. -/
theorem gasGate_pairGas (perPoint base : UInt64) (x : Bytes) (g : UInt64) (r : PrecompileResult)
    (hmul : perPoint.toNat * x.length < 2 ^ 64) (hpos : 0 < perPoint.toNat)
    (hbase : base.toNat < 2 ^ 63) :
    gasGate (ok (BN128Pair.pairGas perPoint base x)) g r =
      if g.toNat < perPoint.toNat * x.length / 192 + base.toNat then err .OutOfGas else r := by
  have hlen : x.length ≤ perPoint.toNat * x.length := Nat.le_mul_of_pos_left _ hpos
  rw [gasGate_ok_toNat, pairGas_toNat perPoint base x (by omega) hmul (by omega)]

variable {G2 Gt : Type} [CommMonoid Gt] [DecidableEq Gt] (bn : Bn G2 Gt)

/-- The gas gate of ECPAIRING: `OutOfGas` exactly when the limit is below
`per_point · len / 192 + base`, for every input with `80000 · len < 2^64`. -/
theorem pair_run_gas (x : Bytes) (g : UInt64) (hlen : 80000 * x.length < 2 ^ 64) :
    BN128Pair.run bn .Byzantium x g =
      (if g.toNat < 80000 * x.length / 192 + 100000 then err .OutOfGas
        else BN128Pair.runInner bn x) ∧
    BN128Pair.run bn .Istanbul x g =
      (if g.toNat < 34000 * x.length / 192 + 45000 then err .OutOfGas
        else BN128Pair.runInner bn x) :=
  ⟨gasGate_pairGas _ _ x g _ hlen (by decide) (by decide),
    gasGate_pairGas _ _ x g _ (show 34000 * x.length < 2 ^ 64 by omega) (by decide) (by decide)⟩

/-- The gate at the 66-byte input, with `80000 · 66 < 2^64`. -/
theorem pair_run_gas_66_bytes :
    80000 * (List.replicate 66 (0x11 : UInt8)).length < 2 ^ 64 ∧
    (BN128Pair.run unitBn .Byzantium (List.replicate 66 0x11) 100000 =
      (if (100000 : UInt64).toNat < 80000 * (List.replicate 66 (0x11 : UInt8)).length / 192 + 100000
        then err .OutOfGas else BN128Pair.runInner unitBn (List.replicate 66 0x11)) ∧
    BN128Pair.run unitBn .Istanbul (List.replicate 66 0x11) 100000 =
      (if (100000 : UInt64).toNat < 34000 * (List.replicate 66 (0x11 : UInt8)).length / 192 + 45000
        then err .OutOfGas else BN128Pair.runInner unitBn (List.replicate 66 0x11))) :=
  ⟨by simp, pair_run_gas unitBn _ _ (by simp)⟩

/-- At a 66-byte input, a gas limit of 100 000 covers
`base + per_point · ⌊66 / 192⌋ = 100 000` but not the `per_point · 66 / 192 + base
= 127 500` the code charges: the call fails with `OutOfGas`, where `run_inner`
returns the framing error. -/
theorem BN128Pair.run_short_input_out_of_gas :
    BN128Pair.run bn .Byzantium (List.replicate 66 0x11) 100000 = err .OutOfGas ∧
    BN128Pair.runInner bn (List.replicate 66 0x11) =
      err (.Other "input length invalid, must be multiple of 192") := by
  refine ⟨?_, ?_⟩
  · rw [BN128Pair.run, BN128Pair.requiredGas, gasGate_ok, if_pos (by decide)]
  · rw [BN128Pair.runInner, if_pos (by decide)]

/-- On `n` whole elements the code charges `base + per_point · n`, the price of
the fork, for every `n < 2^40`. -/
theorem pair_run_gas_whole_elements (x : Bytes) (n : Nat) (g : UInt64) (hx : x.length = 192 * n)
    (hn : n < 2 ^ 40) :
    BN128Pair.run bn .Byzantium x g =
      (if g.toNat < 100000 + 80000 * n then err .OutOfGas else BN128Pair.runInner bn x) ∧
    BN128Pair.run bn .Istanbul x g =
      (if g.toNat < 45000 + 34000 * n then err .OutOfGas else BN128Pair.runInner bn x) := by
  have hB : 80000 * x.length / 192 + 100000 = 100000 + 80000 * n := by omega
  have hI : 34000 * x.length / 192 + 45000 = 45000 + 34000 * n := by omega
  refine ⟨(gasGate_pairGas _ _ x g _ ?_ (by decide) (by decide)).trans ?_,
    (gasGate_pairGas _ _ x g _ ?_ (by decide) (by decide)).trans ?_⟩
  · show 80000 * x.length < 2 ^ 64
    omega
  · exact congrArg (fun c => if g.toNat < c then err .OutOfGas else _) hB
  · show 34000 * x.length < 2 ^ 64
    omega
  · exact congrArg (fun c => if g.toNat < c then err .OutOfGas else _) hI

/-- The gate at two whole elements. -/
theorem pair_run_gas_two_elements :
    (List.replicate 384 (0 : UInt8)).length = 192 * 2 ∧ 2 < 2 ^ 40 ∧
    (BN128Pair.run unitBn .Byzantium (List.replicate 384 0) 260000 =
      (if (260000 : UInt64).toNat < 100000 + 80000 * 2 then err .OutOfGas
        else BN128Pair.runInner unitBn (List.replicate 384 0)) ∧
    BN128Pair.run unitBn .Istanbul (List.replicate 384 0) 260000 =
      (if (260000 : UInt64).toNat < 45000 + 34000 * 2 then err .OutOfGas
        else BN128Pair.runInner unitBn (List.replicate 384 0))) :=
  ⟨List.length_replicate _ _, by norm_num,
    pair_run_gas_whole_elements unitBn _ 2 _ (List.length_replicate _ _) (by norm_num)⟩

end Gas

end AuroraBn128
