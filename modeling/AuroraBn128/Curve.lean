import AuroraBn128.BigEndian
import Mathlib.Data.ZMod.Basic

/-!
# aurora-engine bn128: the interface of the `bn` crate

The precompiles call the `bn` crate for alt_bn128 arithmetic.  The crate is not
part of the repository; this module models the part of it the precompiles
observe.

**Computed here.**
* The base field `Fq = ℤ/p` and the scalar field `Fr = ℤ/r`, with their 32-byte
  interpreters, which refuse a big-endian value that is not below the modulus.
* `Fq2 = Fq[u]`, as the pair `(real, imag)` that `Fq2::new` builds.
* G1: the point at infinity, or an affine point of `y² = x³ + 3` over `Fq`.  The
  curve equation is a field of `AffineG1`, so every G1 value is a curve point.
  `AffineG1::new` checks the equation; `AffineG1::from_jacobian` gives the affine
  form, `None` at infinity; `Fq::into_u256` gives the canonical representative.

**Parameters** (`Bn`): the G1 group law, the construction of G2 points and the
pairing into a commutative monoid Gt.  The one law the precompiles rely on is that
the point at infinity is neutral for addition.  `unitBn` and `flatBn` are two
small instances on which the model can be evaluated; the pairing of `flatBn` tells
the point at infinity from the affine points.
-/

namespace AuroraBn128

/-- The modulus `p` of the base field of alt_bn128. -/
def fqModulus : Nat :=
  21888242871839275222246405745257275088696311157297823662689037894645226208583

/-- The modulus `r` of the scalar field of alt_bn128, the order of G1. -/
def frModulus : Nat :=
  21888242871839275222246405745257275088548364400416034343698204186575808495617

instance : NeZero fqModulus := ⟨by decide⟩

instance : NeZero frModulus := ⟨by decide⟩

theorem fqModulus_lt : fqModulus < 256 ^ 32 := by decide

/-- Modelled from the spec: `bn::Fq`, the integers modulo `p`. -/
abbrev Fq := ZMod fqModulus

/-- Modelled from the spec: `bn::Fr`, the integers modulo `r`. -/
abbrev Fr := ZMod frModulus

/-- Modelled from the spec: `bn::FieldError`, as the interpreters return it. -/
inductive FieldError where
  | NotMember
deriving DecidableEq, Repr

/-- Modelled from the spec: `bn::GroupError`, as `AffineG1::new` and
`AffineG2::new` return it. -/
inductive GroupError where
  | NotOnCurve
  | NotInSubgroup
deriving DecidableEq, Repr

/-- Modelled from the spec: `Fq::interpret` of the `bn` crate reads the 32 bytes
as a big-endian number and refuses it unless it is below `p`. -/
def Fq.interpret (buf : Bytes) : Except FieldError Fq :=
  if decodeBE buf < fqModulus then .ok (decodeBE buf : Fq) else .error .NotMember

/-- Modelled from the spec: `Fr::interpret` of the `bn` crate reads the 32 bytes
as a big-endian number and refuses it unless it is below `r`. -/
def Fr.interpret (buf : Bytes) : Except FieldError Fr :=
  if decodeBE buf < frModulus then .ok (decodeBE buf : Fr) else .error .NotMember

/-- Modelled from the spec: `Fq::into_u256` of the `bn` crate gives the canonical
representative, below `p`. -/
def Fq.intoU256 (x : Fq) : U256 := BitVec.ofNat 256 x.val

/-- Modelled from the spec: `bn::Fq2`, the element `real + imag · u`. -/
structure Fq2 where
  real : Fq
  imag : Fq
deriving DecidableEq

/-- Modelled from the spec: `Fq2::new(real, imag)` builds `real + imag · u`. -/
def Fq2.new (real imag : Fq) : Fq2 := ⟨real, imag⟩

/-- Modelled from the spec: `Fq2::is_zero` holds when both parts are zero. -/
def Fq2.isZero (z : Fq2) : Bool := z.real = 0 && z.imag = 0

/-- Modelled from the spec: `bn::AffineG1`, a point of `y² = x³ + 3` over `Fq`. -/
structure AffineG1 where
  x : Fq
  y : Fq
  on_curve : y ^ 2 = x ^ 3 + 3
deriving DecidableEq

/-- Modelled from the spec: `bn::G1`, the point at infinity or an affine point. -/
inductive G1 where
  | zero
  | affine (a : AffineG1)
deriving DecidableEq

/-- Modelled from the spec: `AffineG1::new(x, y)` of the `bn` crate builds the
point `(x, y)` and refuses it off the curve. -/
def AffineG1.new (x y : Fq) : Except GroupError AffineG1 :=
  if h : y ^ 2 = x ^ 3 + 3 then .ok ⟨x, y, h⟩ else .error .NotOnCurve

/-- Modelled from the spec: `AffineG1::from_jacobian` of the `bn` crate gives the
affine form of a point, `None` at infinity. -/
def AffineG1.fromJacobian : G1 → Option AffineG1
  | .zero => none
  | .affine a => some a

/-- The operations of the `bn` crate whose arithmetic the model does not compute:
the G1 group law, the construction of G2 points and the pairing into Gt. -/
structure Bn (G2 Gt : Type) where
  /-- `G1 + G1`. -/
  add : G1 → G1 → G1
  /-- `G1 * Fr`. -/
  mul : G1 → Fr → G1
  /-- The point at infinity is neutral for the group law. -/
  add_zero : ∀ P, add P .zero = P
  /-- `G2::zero()`. -/
  g2Zero : G2
  /-- `AffineG2::new(x, y)` then `G2::from`: refuses a point off the twist or
  outside the subgroup of order `r`. -/
  affineG2New : Fq2 → Fq2 → Except GroupError G2
  /-- `bn::pairing`. -/
  pairing : G1 → G2 → Gt

/-- A library to evaluate the model on: the group law and the scalar product
keep their first argument, and G2 and Gt have one element each. -/
def unitBn : Bn Unit Unit where
  add P _ := P
  mul P _ := P
  add_zero _ := rfl
  g2Zero := ()
  affineG2New _ _ := .ok ()
  pairing _ _ := ()

/-- A second library to evaluate the model on: adding the point at infinity
keeps the other point, and two affine points add to the point at infinity, so
the group law is commutative; Gt is `ℕ` under multiplication, and the pairing is
`1` at the point at infinity and `2` at every affine point. -/
def flatBn : Bn Unit Nat where
  add
    | .zero, Q => Q
    | P, .zero => P
    | .affine _, .affine _ => .zero
  mul P _ := P
  add_zero P := by cases P <;> rfl
  g2Zero := ()
  affineG2New _ _ := .ok ()
  pairing
    | .zero, _ => 1
    | .affine _, _ => 2

theorem flatBn_add_comm (P Q : G1) : flatBn.add P Q = flatBn.add Q P := by
  cases P <;> cases Q <;> rfl

/-- The origin is not on the curve: `0 = 0 + 3` fails in `Fq`. -/
theorem origin_not_on_curve : ¬ ((0 : Fq) ^ 2 = 0 ^ 3 + 3) := by decide

theorem Fq.interpret_of_lt {buf : Bytes} (h : decodeBE buf < fqModulus) :
    Fq.interpret buf = .ok (decodeBE buf : Fq) := by
  simp [Fq.interpret, h]

theorem Fq.interpret_of_le {buf : Bytes} (h : fqModulus ≤ decodeBE buf) :
    Fq.interpret buf = .error .NotMember := by
  simp [Fq.interpret, Nat.not_lt.mpr h]

/-- The representative of an interpreted value is the value read. -/
theorem Fq.val_interpret {buf : Bytes} {x : Fq} (h : Fq.interpret buf = .ok x) :
    x.val = decodeBE buf := by
  unfold Fq.interpret at h
  split at h
  · next hlt =>
      cases h
      exact ZMod.val_cast_of_lt hlt
  · cases h

@[simp] theorem Fq.toNat_intoU256 (x : Fq) : (Fq.intoU256 x).toNat = x.val := by
  have hx : x.val < 2 ^ 256 := lt_of_lt_of_le (ZMod.val_lt x) (le_of_lt fqModulus_lt)
  simp only [Fq.intoU256, BitVec.toNat_ofNat]
  exact Nat.mod_eq_of_lt hx

/-- Interpreting the written form of an element gives the element back. -/
@[simp] theorem Fq.interpret_toBigEndian (x : Fq) :
    Fq.interpret (toBigEndian (Fq.intoU256 x)) = .ok x := by
  rw [Fq.interpret_of_lt (by simpa using ZMod.val_lt x)]
  simp

/-- A 32-byte word that the interpreter accepts is the word written for its value. -/
theorem Fq.toBigEndian_of_interpret {w : Bytes} {v : Fq} (hw : w.length = 32)
    (h : Fq.interpret w = .ok v) : toBigEndian (Fq.intoU256 v) = w := by
  have e := encodeBE_decodeBE w
  rw [hw] at e
  rw [toBigEndian, Fq.toNat_intoU256, Fq.val_interpret h, e]

theorem Fq.toOption_interpret (buf : Bytes) :
    (Fq.interpret buf).toOption =
      if decodeBE buf < fqModulus then some (decodeBE buf : Fq) else none := by
  unfold Fq.interpret
  split <;> rfl

theorem Fr.toOption_interpret (buf : Bytes) :
    (Fr.interpret buf).toOption =
      if decodeBE buf < frModulus then some (decodeBE buf : Fr) else none := by
  unfold Fr.interpret
  split <;> rfl

@[simp] theorem Fq.interpret_replicate_zero : Fq.interpret (List.replicate 32 0) = .ok 0 := by
  rw [Fq.interpret_of_lt (by simpa using NeZero.pos fqModulus)]
  simp

@[simp] theorem Fr.interpret_replicate_zero : Fr.interpret (List.replicate 32 0) = .ok 0 := by
  simp [Fr.interpret, NeZero.pos frModulus]

@[simp] theorem Fq2.isZero_iff (z : Fq2) : z.isZero = true ↔ z.real = 0 ∧ z.imag = 0 := by
  simp [Fq2.isZero]

theorem AffineG1.new_of_on_curve {x y : Fq} (h : y ^ 2 = x ^ 3 + 3) :
    AffineG1.new x y = .ok ⟨x, y, h⟩ := by
  simp [AffineG1.new, h]

end AuroraBn128
