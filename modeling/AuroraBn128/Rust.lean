import Mathlib.Data.List.Basic
import Mathlib.Algebra.Group.Nat.Basic

/-!
# aurora-engine bn128: the Rust runtime of the precompiles

The precompiles of `src/precompiles/bn128.rs` are Rust functions returning
`PrecompileResult = Result<(ExitSucceed, Vec<u8>, u64), ExitError>`.  Besides
returning `Ok` or `Err`, Rust code can *panic*: a slice `&xs[a..b]` out of range,
or a `copy_from_slice` between buffers of different lengths.

**Model.**

* `RustResult` has the three outcomes `panic`, `err e` and `ok a`; its `bind` is
  the `?` operator, so an `Err` or a panic ends the computation.
* Byte buffers (`&[u8]`, `Vec<u8>`, `[u8; 32]`) are lists of `UInt8`.  Index
  arithmetic is exact: every index a precompile computes is at most the length of
  the buffer it slices, itself a `usize`, so none of them overflows.
* `sliceRange`, `copyFromSlice`, `copyIntoRange` and `resize` are the slice and
  `Vec` operations the file calls, with the panics of the standard library.
* `gasGate` is the body shared by every `Precompile::run` of the file.

The call context is never read by the precompiles and is left out of the model.
-/

namespace AuroraBn128

/-- The variants of `evm::ExitError` the precompiles return. -/
inductive ExitError where
  | OutOfGas
  | Other (msg : String)
deriving DecidableEq, Repr

/-- The variant of `evm::ExitSucceed` the precompiles return. -/
inductive ExitSucceed where
  | Returned
deriving DecidableEq, Repr

/-- What a call of Rust code does: panic, return `Err e`, or return `Ok a`. -/
inductive RustResult (α : Type) where
  | panic
  | err (e : ExitError)
  | ok (a : α)
deriving DecidableEq, Repr

namespace RustResult

variable {α β : Type}

/-- The `?` operator: a panic or an `Err` ends the computation. -/
def bind : RustResult α → (α → RustResult β) → RustResult β
  | panic, _ => panic
  | err e, _ => err e
  | ok a, f => f a

instance : Monad RustResult where
  pure := ok
  bind := bind

/-- The `Ok` value, forgetting which error or panic ended the call. -/
def toOption : RustResult α → Option α
  | ok a => some a
  | _ => none

@[simp] theorem pure_eq_ok (a : α) : (pure a : RustResult α) = ok a := rfl

@[simp] theorem ok_bind (a : α) (f : α → RustResult β) : (ok a >>= f) = f a := rfl

@[simp] theorem err_bind (e : ExitError) (f : α → RustResult β) : (err e >>= f) = err e := rfl

@[simp] theorem panic_bind (f : α → RustResult β) : (panic >>= f) = panic := rfl

@[simp] theorem toOption_ok (a : α) : (ok a).toOption = some a := rfl

@[simp] theorem toOption_err (e : ExitError) : (err e : RustResult α).toOption = none := rfl

@[simp] theorem toOption_panic : (panic : RustResult α).toOption = none := rfl

theorem bind_bind {γ : Type} (x : RustResult α) (f : α → RustResult β) (g : β → RustResult γ) :
    (x >>= f) >>= g = x >>= fun a => f a >>= g := by
  cases x <;> rfl

/-- The `Ok` value of a sequence is read off the `Ok` values of its parts. -/
@[simp] theorem toOption_bind (x : RustResult α) (f : α → RustResult β) :
    (x >>= f).toOption = x.toOption.bind fun a => (f a).toOption := by
  cases x <;> rfl

/-- A sequence returns `Ok` exactly when each of its parts does. -/
theorem bind_eq_ok {x : RustResult α} {f : α → RustResult β} {b : β} :
    x >>= f = ok b ↔ ∃ a, x = ok a ∧ f a = ok b := by
  cases x <;> simp

/-- A sequence panics only where one of its parts does. -/
theorem bind_ne_panic {x : RustResult α} {f : α → RustResult β}
    (hx : x ≠ panic) (hf : ∀ a, x = ok a → f a ≠ panic) : x >>= f ≠ panic := by
  cases x with
  | panic => exact absurd rfl hx
  | err e => simp
  | ok a => exact hf a rfl

/-- Every `Err` that `r` can return satisfies `P`. -/
def ErrorsIn (P : ExitError → Prop) (r : RustResult α) : Prop := ∀ e, r = err e → P e

theorem errorsIn_ok {P : ExitError → Prop} (a : α) : ErrorsIn P (ok a) := by
  intro e h
  cases h

theorem errorsIn_panic {P : ExitError → Prop} : ErrorsIn P (panic : RustResult α) := by
  intro e h
  cases h

/-- A sequence returns only the errors of its parts. -/
theorem ErrorsIn.bind {P : ExitError → Prop} {x : RustResult α} {f : α → RustResult β}
    (hx : ErrorsIn P x) (hf : ∀ a, ErrorsIn P (f a)) : ErrorsIn P (x >>= f) := by
  intro e h
  cases x with
  | panic => cases h
  | err e' =>
      cases h
      exact hx _ rfl
  | ok a => exact hf a e h

theorem ErrorsIn.mono {P Q : ExitError → Prop} {r : RustResult α} (hPQ : ∀ e, P e → Q e)
    (h : ErrorsIn P r) : ErrorsIn Q r :=
  fun e he => hPQ e (h e he)

end RustResult

open RustResult

/-- `&[u8]`, `Vec<u8>` and `[u8; N]`. -/
abbrev Bytes := List UInt8

/-- `PrecompileResult`: the exit status, the output bytes and the `u64` cost field. -/
abbrev PrecompileResult := RustResult (ExitSucceed × Bytes × UInt64)

/-- `result.map_err(|_| e)?` on a library `Result`. -/
def mapErr {ε α : Type} (x : Except ε α) (e : ExitError) : RustResult α :=
  match x with
  | .ok a => ok a
  | .error _ => err e

@[simp] theorem mapErr_ok {ε α : Type} (a : α) (e : ExitError) :
    mapErr (Except.ok a : Except ε α) e = ok a := rfl

@[simp] theorem mapErr_error {ε α : Type} (x : ε) (e : ExitError) :
    mapErr (Except.error x : Except ε α) e = err e := rfl

@[simp] theorem toOption_mapErr {ε α : Type} (x : Except ε α) (e : ExitError) :
    (mapErr x e).toOption = x.toOption := by
  cases x <;> rfl

theorem mapErr_eq_ok {ε α : Type} {x : Except ε α} {e : ExitError} {a : α} :
    mapErr x e = ok a ↔ x = .ok a := by
  cases x <;> simp

theorem mapErr_ne_panic {ε α : Type} (x : Except ε α) (e : ExitError) : mapErr x e ≠ panic := by
  cases x <;> simp

theorem errorsIn_mapErr {ε α : Type} {P : ExitError → Prop} (x : Except ε α) {e : ExitError}
    (h : P e) : ErrorsIn P (mapErr x e) := by
  intro e' he
  cases x with
  | ok a => cases he
  | error _ =>
      cases he
      exact h

/-- `&xs[a..b]`: the bytes from `a` to `b`; a panic unless `a ≤ b ≤ xs.len()`. -/
def sliceRange (xs : Bytes) (a b : Nat) : RustResult Bytes :=
  if a ≤ b ∧ b ≤ xs.length then ok ((xs.drop a).take (b - a)) else panic

/-- `dst.copy_from_slice(src)`: the new contents of `dst`; a panic when the
lengths differ. -/
def copyFromSlice (dst src : Bytes) : RustResult Bytes :=
  if src.length = dst.length then ok src else panic

/-- `dst[a..b].copy_from_slice(src)`: `dst` with its window `a..b` overwritten. -/
def copyIntoRange (dst : Bytes) (a b : Nat) (src : Bytes) : RustResult Bytes := do
  let window ← sliceRange dst a b
  let window ← copyFromSlice window src
  pure (dst.take a ++ window ++ dst.drop b)

/-- `Vec::resize(n, v)`: truncate to `n` bytes, or extend with copies of `v`. -/
def resize (xs : Bytes) (n : Nat) (v : UInt8) : Bytes :=
  xs.take n ++ List.replicate (n - xs.length) v

theorem sliceRange_of_le {xs : Bytes} {a b : Nat} (hab : a ≤ b) (hb : b ≤ xs.length) :
    sliceRange xs a b = ok ((xs.drop a).take (b - a)) := by
  simp [sliceRange, hab, hb]

@[simp] theorem copyFromSlice_of_length {dst src : Bytes} (h : src.length = dst.length) :
    copyFromSlice dst src = ok src := by
  simp [copyFromSlice, h]

theorem errorsIn_sliceRange (P : ExitError → Prop) (xs : Bytes) (a b : Nat) :
    ErrorsIn P (sliceRange xs a b) := by
  unfold sliceRange
  split
  · exact errorsIn_ok _
  · exact errorsIn_panic

theorem errorsIn_copyFromSlice (P : ExitError → Prop) (dst src : Bytes) :
    ErrorsIn P (copyFromSlice dst src) := by
  unfold copyFromSlice
  split
  · exact errorsIn_ok _
  · exact errorsIn_panic

@[simp] theorem length_resize (xs : Bytes) (n : Nat) (v : UInt8) :
    (resize xs n v).length = n := by
  simp only [resize, List.length_append, List.length_take, List.length_replicate]
  omega

/-- Writing a window of the right length inside the buffer never panics. -/
theorem copyIntoRange_of_le {dst src : Bytes} {a b : Nat} (hab : a ≤ b) (hb : b ≤ dst.length)
    (hsrc : src.length = b - a) :
    copyIntoRange dst a b src = ok (dst.take a ++ src ++ dst.drop b) := by
  have hw : ((dst.drop a).take (b - a)).length = b - a := by simp; omega
  simp [copyIntoRange, sliceRange_of_le hab hb, copyFromSlice_of_length (hsrc.trans hw.symm)]

/-- The hard forks a precompile is instantiated at; they select only the gas
schedule. -/
inductive HardFork where
  | Byzantium
  | Istanbul
deriving DecidableEq, Repr

/-- The body of every `Precompile::run` of the file: `Err(OutOfGas)` when
`Self::required_gas(input)?` exceeds `target_gas`, otherwise `Self::run_inner`. -/
def gasGate (requiredGas : RustResult UInt64) (targetGas : UInt64)
    (runInner : PrecompileResult) : PrecompileResult := do
  let gas ← requiredGas
  if gas > targetGas then err .OutOfGas else runInner

/-- With a gas cost that is always `Ok`, the gate compares it with the limit and
nothing else. -/
@[simp] theorem gasGate_ok (gas targetGas : UInt64) (runInner : PrecompileResult) :
    gasGate (ok gas) targetGas runInner =
      if gas > targetGas then err .OutOfGas else runInner := rfl

/-- `u64` addition wraps modulo `2^64`. -/
theorem toNat_add_u64 (a b : UInt64) : (a + b).toNat = (a.toNat + b.toNat) % 2 ^ 64 :=
  BitVec.toNat_add _ _

/-- `u64` multiplication wraps modulo `2^64`. -/
theorem toNat_mul_u64 (a b : UInt64) : (a * b).toNat = a.toNat * b.toNat % 2 ^ 64 :=
  BitVec.toNat_mul _ _

/-- The comparison of the gate, in exact arithmetic. -/
theorem gasGate_ok_toNat (gas targetGas : UInt64) (runInner : PrecompileResult) :
    gasGate (ok gas) targetGas runInner =
      if targetGas.toNat < gas.toNat then err .OutOfGas else runInner := rfl

theorem gasGate_ne_panic {gas targetGas : UInt64} {runInner : PrecompileResult}
    (h : runInner ≠ panic) : gasGate (ok gas) targetGas runInner ≠ panic := by
  rw [gasGate_ok]
  split
  · simp
  · exact h

theorem gasGate_eq_ok {gas targetGas : UInt64} {runInner : PrecompileResult}
    {out : ExitSucceed × Bytes × UInt64} (h : gasGate (ok gas) targetGas runInner = ok out) :
    runInner = ok out := by
  rw [gasGate_ok] at h
  split at h
  · cases h
  · exact h

/-- The gate adds `OutOfGas` to the errors of the body. -/
theorem errorsIn_gasGate {P : ExitError → Prop} {gas targetGas : UInt64}
    {runInner : PrecompileResult} (hgas : P .OutOfGas) (h : ErrorsIn P runInner) :
    ErrorsIn P (gasGate (ok gas) targetGas runInner) := by
  rw [gasGate_ok]
  split
  · intro e he
    cases he
    exact hgas
  · exact h

end AuroraBn128
