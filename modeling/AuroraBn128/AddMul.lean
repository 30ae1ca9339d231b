import AuroraBn128.Points

/-!
# aurora-engine bn128: ECADD and ECMUL

`BN128Add` (address `0x06`) and `BN128Mul` (address `0x07`).  Both resize their
input to 128 bytes, decode it, call the `bn` group law and end with the shared
output writer.

**Results.**
* `BN128Add.runInner_eq`, `BN128Mul.runInner_eq`: what the two bodies compute, with
  no panic left.
* `precompile_runs_depend_on_padded_prefix`: ECADD sees only the first 128 bytes,
  ECMUL only the first 96, of the input right-padded with zeros.
* `writeOutput_readPoint_inverse`: the output writer and `read_point` are mutually
  inverse, so every output of ECADD or ECMUL is accepted as an input of both.
* `runInner_add_contract`, `runInner_mul_contract`: each returns `Ok` exactly when
  the points (and the scalar) its description reads are valid, with their sum
  (product).
* `runInner_add_swap`: ECADD reads its two points alike, so with a commutative
  group law swapping them changes neither acceptance nor the sum.
-/

namespace AuroraBn128

open RustResult

/-- Zeros appended to the input do not change a resized buffer. -/
theorem resize_append_replicate (xs : Bytes) (n k : Nat) (v : UInt8) :
    resize (xs ++ List.replicate k v) n v = resize xs n v := by
  simp only [resize, List.take_append_eq_append_take, List.take_replicate, List.length_append,
    List.length_replicate, List.append_assoc, ← List.replicate_add]
  congr 2
  omega

/-- Past the resized length, the input is cut off. -/
theorem resize_append_of_le {xs : Bytes} {n : Nat} (ys : Bytes) (v : UInt8) (h : n ≤ xs.length) :
    resize (xs ++ ys) n v = resize xs n v := by
  simp only [resize, List.take_append_of_le_length h, List.length_append]
  congr 2
  omega

/-- The first `m` bytes of a resized buffer are those of the input, as long as
the input has them. -/
theorem take_resize {xs : Bytes} {m n : Nat} (v : UInt8) (hm : m ≤ n) (hx : m ≤ xs.length) :
    (resize xs n v).take m = xs.take m := by
  rw [resize, List.take_append_of_le_length (by simp; omega), List.take_take,
    Nat.min_eq_left hm]

/-- A buffer shorter than the resized length is padded. -/
theorem resize_of_le {xs : Bytes} {n : Nat} (v : UInt8) (h : xs.length ≤ n) :
    resize xs n v = xs ++ List.replicate (n - xs.length) v := by
  rw [resize, List.take_of_length_le h]

/-- The 128-byte buffer built from a 64-byte ECADD/ECMUL output. -/
theorem resize_encodeG1 (p : G1) :
    resize (encodeG1 p) 128 0 = encodeG1 p ++ encodeG1 .zero := by
  rw [resize_of_le _ (by simp), length_encodeG1]
  rfl

theorem readPoint_resize_encodeG1_64 (p : G1) :
    readPoint (resize (encodeG1 p) 128 0) 64 = ok .zero := by
  rw [resize_encodeG1, show 64 = (encodeG1 p).length + 0 by simp, readPoint_append_shift,
    readPoint_encodeG1]

theorem readPoint_resize_encodeG1_0 (p : G1) :
    readPoint (resize (encodeG1 p) 128 0) 0 = ok p := by
  rw [resize_encodeG1, readPoint_append_left (by simp), readPoint_encodeG1]

namespace BN128Add

variable {G2 Gt : Type} (bn : Bn G2 Gt)

/-- `BN128Add::run_inner`. -/
def runInner (input : Bytes) : PrecompileResult := do
  let input := resize input Consts.addInputLen 0
  let p1 ← readPoint input 0
  let p2 ← readPoint input 64
  let output ← writeOutput (bn.add p1 p2)
  pure (.Returned, output, 0)

/-- `BN128Add::required_gas` of each fork. -/
def requiredGas : HardFork → Bytes → RustResult UInt64
  | .Byzantium, _ => ok Costs.byzantiumAdd
  | .Istanbul, _ => ok Costs.istanbulAdd

/-- `BN128Add::run`: takes in two points on the elliptic curve alt_bn128 and
calculates the sum of them. -/
def run (fork : HardFork) (input : Bytes) (targetGas : UInt64) : PrecompileResult :=
  gasGate (requiredGas fork input) targetGas (runInner bn input)

/-- ECADD on its resized buffer: the two points it reads, and their sum written. -/
theorem runInner_eq (input : Bytes) :
    runInner bn input = (do
      let p1 ← readPoint (resize input 128 0) 0
      let p2 ← readPoint (resize input 128 0) 64
      pure (.Returned, encodeG1 (bn.add p1 p2), 0)) := by
  simp only [runInner, Consts.addInputLen, writeOutput_eq, ok_bind]

theorem runInner_ne_panic (input : Bytes) : runInner bn input ≠ panic := by
  rw [runInner_eq]
  exact bind_ne_panic (readPoint_ne_panic (by simp)) fun _ _ =>
    bind_ne_panic (readPoint_ne_panic (by simp)) fun _ _ => by simp

/-- ECADD depends on its input only through the resized buffer. -/
theorem run_congr {x x' : Bytes} (h : resize x 128 0 = resize x' 128 0) (fork : HardFork)
    (g : UInt64) : run bn fork x g = run bn fork x' g := by
  cases fork <;> simp only [run, requiredGas, runInner_eq, h]

/-- Every ECADD output is the encoding of a point. -/
theorem runInner_eq_ok {input : Bytes} {out : ExitSucceed × Bytes × UInt64}
    (h : runInner bn input = ok out) : ∃ p, out = (.Returned, encodeG1 p, 0) := by
  rw [runInner_eq] at h
  obtain ⟨p1, -, h⟩ := bind_eq_ok.mp h
  obtain ⟨p2, -, h⟩ := bind_eq_ok.mp h
  exact ⟨bn.add p1 p2, (ok.inj h).symm⟩

/-- ECADD of an encoded point alone adds the point at infinity: it returns its input. -/
theorem runInner_encodeG1 (p : G1) :
    runInner bn (encodeG1 p) = ok (.Returned, encodeG1 p, 0) := by
  rw [runInner_eq, readPoint_resize_encodeG1_0, readPoint_resize_encodeG1_64]
  simp [bn.add_zero]

theorem errorsIn_runInner (input : Bytes) : ErrorsIn (· ∈ readPointErrors) (runInner bn input) := by
  rw [runInner_eq]
  exact (errorsIn_readPoint _ _).bind fun _ => (errorsIn_readPoint _ _).bind fun _ => errorsIn_ok _

end BN128Add

namespace BN128Mul

variable {G2 Gt : Type} (bn : Bn G2 Gt)

/-- `BN128Mul::run_inner`. -/
def runInner (input : Bytes) : PrecompileResult := do
  let input := resize input Consts.mulInputLen 0
  let p ← readPoint input 0
  let fr ← readWord Fr.interpret input 64 96 "invalid field element"
  let output ← writeOutput (bn.mul p fr)
  pure (.Returned, output, 0)

/-- `BN128Mul::required_gas` of each fork. -/
def requiredGas : HardFork → Bytes → RustResult UInt64
  | .Byzantium, _ => ok Costs.byzantiumMul
  | .Istanbul, _ => ok Costs.istanbulMul

/-- `BN128Mul::run`: takes in a point on the elliptic curve alt_bn128 and a
scalar, and multiplies them. -/
def run (fork : HardFork) (input : Bytes) (targetGas : UInt64) : PrecompileResult :=
  gasGate (requiredGas fork input) targetGas (runInner bn input)

/-- ECMUL on its resized buffer: the point and the scalar it reads, and their
product written. -/
theorem runInner_eq (input : Bytes) :
    runInner bn input = (do
      let p ← readPoint (resize input 128 0) 0
      let fr ← mapErr (Fr.interpret (wordAt (resize input 128 0) 64))
        (.Other "invalid field element")
      pure (.Returned, encodeG1 (bn.mul p fr), 0)) := by
  simp only [runInner, Consts.mulInputLen, writeOutput_eq, ok_bind]
  rw [readWord_of_le _ _ (by simp)]

theorem runInner_ne_panic (input : Bytes) : runInner bn input ≠ panic := by
  rw [runInner_eq]
  exact bind_ne_panic (readPoint_ne_panic (by simp)) fun _ _ =>
    bind_ne_panic (mapErr_ne_panic _ _) fun _ _ => by simp

/-- ECMUL reads nothing past byte 96 of its resized buffer. -/
theorem runInner_congr {x x' : Bytes}
    (h : (resize x 128 0).take 96 = (resize x' 128 0).take 96) :
    runInner bn x = runInner bn x' := by
  have hw : ∀ a, a + 32 ≤ 96 → wordAt (resize x 128 0) a = wordAt (resize x' 128 0) a := by
    intro a ha
    rw [← wordAt_take ha, h, wordAt_take ha]
  rw [runInner_eq, runInner_eq, readPoint_eq (by simp), readPoint_eq (by simp),
    hw 0 (by decide), hw 32 (by decide), hw 64 (by decide)]

/-- ECMUL depends on its input only through the first 96 bytes of the resized
buffer. -/
theorem run_congr {x x' : Bytes} (h : (resize x 128 0).take 96 = (resize x' 128 0).take 96)
    (fork : HardFork) (g : UInt64) : run bn fork x g = run bn fork x' g := by
  cases fork <;> simp only [run, requiredGas, runInner_congr bn h]

/-- Every ECMUL output is the encoding of a point. -/
theorem runInner_eq_ok {input : Bytes} {out : ExitSucceed × Bytes × UInt64}
    (h : runInner bn input = ok out) : ∃ p, out = (.Returned, encodeG1 p, 0) := by
  rw [runInner_eq] at h
  obtain ⟨p, -, h⟩ := bind_eq_ok.mp h
  obtain ⟨fr, -, h⟩ := bind_eq_ok.mp h
  exact ⟨bn.mul p fr, (ok.inj h).symm⟩

/-- ECMUL of an encoded point alone multiplies it by the scalar `0`. -/
theorem runInner_encodeG1 (p : G1) :
    runInner bn (encodeG1 p) = ok (.Returned, encodeG1 (bn.mul p 0), 0) := by
  have hw : wordAt (resize (encodeG1 p) 128 0) 64 = List.replicate 32 0 := by
    rw [resize_encodeG1, ← length_encodeG1 p, wordAt_append_right le_rfl, Nat.sub_self]
    rfl
  rw [runInner_eq, readPoint_resize_encodeG1_0, hw, Fr.interpret_replicate_zero]
  rfl

theorem errorsIn_runInner (input : Bytes) :
    ErrorsIn (· ∈ .Other "invalid field element" :: readPointErrors) (runInner bn input) := by
  rw [runInner_eq]
  exact ((errorsIn_readPoint _ _).mono fun _ he => List.mem_cons_of_mem _ he).bind fun _ =>
    (errorsIn_mapErr _ (by decide)).bind fun _ => errorsIn_ok _

end BN128Mul

section Contracts

variable {G2 Gt : Type} (bn : Bn G2 Gt)

/-- ECADD sees only the first 128 bytes, and ECMUL only the first 96 bytes, of its
input right-padded with zeros, at every fork and gas limit. -/
theorem precompile_runs_depend_on_padded_prefix (fork : HardFork) (g : UInt64)
    (x y : Bytes) (k : Nat) :
    BN128Add.run bn fork (x ++ List.replicate k 0) g = BN128Add.run bn fork x g ∧
    (128 ≤ x.length → BN128Add.run bn fork (x ++ y) g = BN128Add.run bn fork x g) ∧
    BN128Mul.run bn fork (x ++ List.replicate k 0) g = BN128Mul.run bn fork x g ∧
    (96 ≤ x.length → BN128Mul.run bn fork (x ++ y) g = BN128Mul.run bn fork x g) := by
  refine ⟨?_, fun h => ?_, ?_, fun h => ?_⟩
  · exact BN128Add.run_congr bn (resize_append_replicate x 128 k 0) fork g
  · exact BN128Add.run_congr bn (resize_append_of_le y 0 h) fork g
  · exact BN128Mul.run_congr bn (by rw [resize_append_replicate]) fork g
  · refine BN128Mul.run_congr bn ?_ fork g
    rw [take_resize 0 (by decide) (by simp; omega), take_resize 0 (by decide) h,
      List.take_append_of_le_length h]

/-- The output writer of ECADD and ECMUL and `read_point` are mutually inverse:
every point is read back from the bytes written for it, and every 64-byte string
`read_point` accepts is the one written for the point read.  So the point at
infinity has the single encoding `0^64`, every ECADD or ECMUL output is the
encoding of a point and is accepted by both, and ECADD returns every 64-byte
string `read_point` accepts unchanged. -/
theorem writeOutput_readPoint_inverse :
    (∀ p : G1, ∃ s, writeOutput p = ok s ∧ readPoint s 0 = ok p) ∧
    (∀ (s : Bytes) (p : G1), s.length = 64 → readPoint s 0 = ok p → writeOutput p = ok s) ∧
    (∀ s : Bytes, s.length = 64 → readPoint s 0 = ok .zero → s = List.replicate 64 0) ∧
    (∀ (x : Bytes) (out : ExitSucceed × Bytes × UInt64),
      (BN128Add.runInner bn x = ok out ∨ BN128Mul.runInner bn x = ok out) →
        ∃ p, out = (.Returned, encodeG1 p, 0)) ∧
    (∀ (x : Bytes) (out : ExitSucceed × Bytes × UInt64),
      (BN128Add.runInner bn x = ok out ∨ BN128Mul.runInner bn x = ok out) →
        (∃ r, BN128Add.runInner bn out.2.1 = ok r) ∧ (∃ r, BN128Mul.runInner bn out.2.1 = ok r)) ∧
    (∀ (s : Bytes) (p : G1), s.length = 64 → readPoint s 0 = ok p → ∀ fork g,
      BN128Add.run bn fork s g =
        gasGate (BN128Add.requiredGas fork s) g (ok (.Returned, s, 0))) := by
  have hout : ∀ (x : Bytes) (out : ExitSucceed × Bytes × UInt64),
      (BN128Add.runInner bn x = ok out ∨ BN128Mul.runInner bn x = ok out) →
        ∃ p, out = (.Returned, encodeG1 p, 0) :=
    fun _ _ h => h.elim (BN128Add.runInner_eq_ok bn) (BN128Mul.runInner_eq_ok bn)
  refine ⟨fun p => ⟨_, writeOutput_eq p, readPoint_encodeG1 p⟩,
    fun s p hs h => ?_, fun s hs h => (encodeG1_readPoint hs h).symm, hout, fun x out h => ?_,
    fun s p hs h fork g => ?_⟩
  · rw [writeOutput_eq, encodeG1_readPoint hs h]
  · obtain ⟨p, rfl⟩ := hout x out h
    exact ⟨⟨_, BN128Add.runInner_encodeG1 bn p⟩, ⟨_, BN128Mul.runInner_encodeG1 bn p⟩⟩
  · rw [BN128Add.run, ← encodeG1_readPoint hs h, BN128Add.runInner_encodeG1]

/-- ECADD returns `Ok` exactly when both points of the zero-padded input are
valid, and then returns the encoding of their sum. -/
theorem runInner_add_contract (x : Bytes) :
    (BN128Add.runInner bn x).toOption =
      (pointAt (resize x 128 0) 0).bind fun p1 =>
        (pointAt (resize x 128 0) 64).map fun p2 => (.Returned, encodeG1 (bn.add p1 p2), 0) := by
  rw [BN128Add.runInner_eq]
  simp only [toOption_bind, toOption_readPoint (show 0 + 64 ≤ (resize x 128 0).length by simp),
    toOption_readPoint (show 64 + 64 ≤ (resize x 128 0).length by simp), pure_eq_ok, toOption_ok,
    Option.map_eq_bind]
  rfl

/-- ECMUL returns `Ok` exactly when the point of the zero-padded input is valid
and the scalar word is below `r`, and then returns the encoding of their product. -/
theorem runInner_mul_contract (x : Bytes) :
    (BN128Mul.runInner bn x).toOption =
      (pointAt (resize x 128 0) 0).bind fun p =>
        if decodeBE (wordAt (resize x 128 0) 64) < frModulus then
          some (.Returned, encodeG1 (bn.mul p (decodeBE (wordAt (resize x 128 0) 64))), 0)
        else none := by
  rw [BN128Mul.runInner_eq]
  simp only [toOption_bind, toOption_readPoint (show 0 + 64 ≤ (resize x 128 0).length by simp),
    toOption_mapErr, Fr.toOption_interpret]
  congr 1
  funext p
  split <;> rfl

/-- ECADD reads its two points alike: with a commutative group law, swapping the
two 64-byte halves of the zero-padded input changes neither acceptance nor the
sum returned. -/
theorem runInner_add_swap (hcomm : ∀ P Q, bn.add P Q = bn.add Q P) (x : Bytes) :
    (BN128Add.runInner bn ((resize x 128 0).drop 64 ++ (resize x 128 0).take 64)).toOption =
      (BN128Add.runInner bn x).toOption := by
  have hlen : (resize x 128 0).length = 128 := length_resize _ _ _
  have hd : ((resize x 128 0).drop 64).length = 64 := by simp [hlen]
  have ht : ((resize x 128 0).take 64).length = 64 := by simp [hlen]
  obtain ⟨h0, h64⟩ := readPoint_swap_halves ht hd
  rw [List.take_append_drop] at h0 h64
  rw [BN128Add.runInner_eq, BN128Add.runInner_eq, resize_of_le 0 (by simp [hd, ht]),
    show 128 - ((resize x 128 0).drop 64 ++ (resize x 128 0).take 64).length = 0 by simp [hd, ht],
    List.replicate_zero, List.append_nil, h0, h64]
  simp only [toOption_bind, pure_eq_ok, toOption_ok]
  cases (readPoint (resize x 128 0) 0).toOption <;>
    cases (readPoint (resize x 128 0) 64).toOption <;>
    simp [hcomm]

/-- The generator `(1, 2)` and the point at infinity, swapped, with the
commutative `flatBn`: the swapped input is another input, with the same answer. -/
theorem runInner_add_swap_generator :
    (∀ P Q, flatBn.add P Q = flatBn.add Q P) ∧
    (resize (toBigEndian 1 ++ toBigEndian 2 ++ List.replicate 64 0) 128 0).drop 64 ++
        (resize (toBigEndian 1 ++ toBigEndian 2 ++ List.replicate 64 0) 128 0).take 64 ≠
      toBigEndian 1 ++ toBigEndian 2 ++ List.replicate 64 0 ∧
    (BN128Add.runInner flatBn
        ((resize (toBigEndian 1 ++ toBigEndian 2 ++ List.replicate 64 0) 128 0).drop 64 ++
          (resize (toBigEndian 1 ++ toBigEndian 2 ++ List.replicate 64 0) 128 0).take 64)).toOption =
      (BN128Add.runInner flatBn (toBigEndian 1 ++ toBigEndian 2 ++ List.replicate 64 0)).toOption :=
  ⟨flatBn_add_comm, by decide,
    runInner_add_swap flatBn flatBn_add_comm (toBigEndian 1 ++ toBigEndian 2 ++ List.replicate 64 0)⟩

end Contracts

end AuroraBn128
