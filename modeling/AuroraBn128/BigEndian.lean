import AuroraBn128.Rust
import Mathlib.Algebra.Group.Nat.Basic

/-!
# aurora-engine bn128: big-endian byte strings

Every number on the wire of the precompiles is an unsigned big-endian byte
string: the 32-byte lanes read by `Fq::interpret` and `Fr::interpret`, and the
32-byte words `U256::to_big_endian` writes.

* `decodeBE bs` is the value of `bs` read most significant byte first.
* `encodeBE count n` writes the low `8 · count` bits of `n` in `count` bytes.

**Results.**
* `decodeBE_lt`: `count` bytes hold a value below `256 ^ count`.
* `decodeBE_encodeBE`, `encodeBE_decodeBE`: the two round trips.
-/

namespace AuroraBn128

/-- Value of a byte string read most significant byte first. -/
def decodeBE : Bytes → Nat
  | [] => 0
  | b :: bs => b.toNat * 256 ^ bs.length + decodeBE bs

/-- The low `8 · count` bits of `n`, as `count` bytes, most significant first. -/
def encodeBE : (count : Nat) → Nat → Bytes
  | 0, _ => []
  | count + 1, n => UInt8.ofNat (n / 256 ^ count) :: encodeBE count (n % 256 ^ count)

@[simp] theorem decodeBE_nil : decodeBE [] = 0 := rfl

@[simp] theorem decodeBE_cons (b : UInt8) (bs : Bytes) :
    decodeBE (b :: bs) = b.toNat * 256 ^ bs.length + decodeBE bs := rfl

@[simp] theorem length_encodeBE (count n : Nat) : (encodeBE count n).length = count := by
  induction count generalizing n with
  | zero =>
      rfl
  | succ count ih =>
      simp [encodeBE, ih]

/-- A byte string of length `count` holds a value below `256 ^ count`. -/
theorem decodeBE_lt (bs : Bytes) : decodeBE bs < 256 ^ bs.length := by
  induction bs with
  | nil =>
      simp
  | cons b bs ih =>
      have hb : b.toNat < 256 := b.toNat_lt_size
      have hstep : b.toNat * 256 ^ bs.length + 256 ^ bs.length ≤ 256 ^ (bs.length + 1) := by
        rw [Nat.pow_succ, ← Nat.succ_mul, Nat.mul_comm]
        exact Nat.mul_le_mul_left _ hb
      simp only [decodeBE_cons, List.length_cons]
      omega

/-- Writing and reading back keeps exactly the representable low bits. -/
@[simp] theorem decodeBE_encodeBE (count n : Nat) :
    decodeBE (encodeBE count n) = n % 256 ^ count := by
  induction count generalizing n with
  | zero =>
      simp [encodeBE, Nat.mod_one]
  | succ count ih =>
      have hbyte : (UInt8.ofNat (n / 256 ^ count)).toNat = n / 256 ^ count % 256 := rfl
      simp only [encodeBE, decodeBE_cons, length_encodeBE, ih, hbyte, Nat.mod_mod,
        Nat.mod_pow_succ]
      ac_rfl

/-- Reading a byte string and writing the value back at its length gives the
string again. -/
@[simp] theorem encodeBE_decodeBE (bs : Bytes) : encodeBE bs.length (decodeBE bs) = bs := by
  induction bs with
  | nil =>
      rfl
  | cons b bs ih =>
      have hlt := decodeBE_lt bs
      have hpos : 0 < 256 ^ bs.length := Nat.pos_pow_of_pos _ (by decide)
      have hdiv : (b.toNat * 256 ^ bs.length + decodeBE bs) / 256 ^ bs.length = b.toNat := by
        rw [Nat.mul_comm, Nat.mul_add_div hpos, Nat.div_eq_of_lt hlt, Nat.add_zero]
      have hmod : (b.toNat * 256 ^ bs.length + decodeBE bs) % 256 ^ bs.length = decodeBE bs := by
        rw [Nat.mul_comm, Nat.mul_add_mod, Nat.mod_eq_of_lt hlt]
      simp only [List.length_cons, decodeBE_cons, encodeBE, hdiv, hmod, ih]
      exact congrArg (· :: bs) (UInt8.toNat.inj (UInt8.toNat_ofNat_of_lt b.toNat_lt_size))

/-- A value that fits is read back unchanged. -/
theorem decodeBE_encodeBE_of_lt {count n : Nat} (h : n < 256 ^ count) :
    decodeBE (encodeBE count n) = n := by
  rw [decodeBE_encodeBE, Nat.mod_eq_of_lt h]

@[simp] theorem encodeBE_zero (count : Nat) : encodeBE count 0 = List.replicate count 0 := by
  induction count with
  | zero =>
      rfl
  | succ count ih =>
      simp [encodeBE, ih, List.replicate_succ]

@[simp] theorem decodeBE_replicate_zero (count : Nat) : decodeBE (List.replicate count 0) = 0 := by
  rw [← encodeBE_zero, decodeBE_encodeBE, Nat.zero_mod]

/-- Modelled from the spec: `bn::arith::U256`, a 256-bit unsigned integer. -/
abbrev U256 := BitVec 256

/-- Modelled from the spec: `U256::to_big_endian` writes the 32 bytes of the
value, most significant first. -/
def toBigEndian (n : U256) : Bytes := encodeBE 32 n.toNat

@[simp] theorem length_toBigEndian (n : U256) : (toBigEndian n).length = 32 :=
  length_encodeBE 32 n.toNat

/-- Every 32-byte word is read back as the number it encodes. -/
@[simp] theorem decodeBE_toBigEndian (n : U256) : decodeBE (toBigEndian n) = n.toNat :=
  decodeBE_encodeBE_of_lt n.isLt

theorem toBigEndian_injective {m n : U256} (h : toBigEndian m = toBigEndian n) : m = n :=
  BitVec.eq_of_toNat_eq (by rw [← decodeBE_toBigEndian, h, decodeBE_toBigEndian])

end AuroraBn128
