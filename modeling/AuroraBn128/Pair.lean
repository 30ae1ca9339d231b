import AuroraBn128.Points
import Mathlib.Algebra.BigOperators.Group.List

/-!
# aurora-engine bn128: ECPAIRING

`BN128Pair` (address `0x08`).  The input is a sequence of 192-byte elements; the
element loop decodes from element `idx` the six 32-byte lanes at
`idx · 192 + 32 k`, builds the G1 point `a` from lanes 0 and 1 and the G2 point
`b = (Fq2(L3, L2), Fq2(L5, L4))` from the other four, and pushes `(a, b)`.  The
pairings are then multiplied together in Gt.

**Model.**
* `decodeElement` is the body of the loop, `g2OfCoords` its `b` block.
* `pairLoop input count idx vals` is the loop from iteration `idx` with `count`
  iterations left and the pairs pushed so far in `vals`.
* `pairGas` is the gas formula of both forks, in `u64` arithmetic.

**Results.**
* `decodeElement_toOption`: one iteration inside the buffer never panics and
  succeeds exactly with the pair `specElement` describes (step lemma).
* `pairLoop_toOption`, `pairLoop_eq_err`: the whole loop, by induction on the
  iterations left (run lemmas): `Ok` with the pairs of all elements, or the error
  of the first element that fails.
* `decodeElement_b_lane`: every `b` lane out of range is reported under the
  message of the `a` argument's `x` coordinate.
* `runInner_toOption`: `run_inner` on an input whose length is a multiple of 192.
* `errorsIn_runInner`: every error of `run_inner` is the framing error or one of
  the messages of the element loop.
-/

namespace AuroraBn128

open RustResult

namespace BN128Pair

section Model

variable {G2 Gt : Type} (bn : Bn G2 Gt)

/-- The `b` block of the element loop: the G2 point with coordinates `(ba, bb)`,
`G2::zero()` when both are zero. -/
def g2OfCoords (ba bb : Fq2) : RustResult G2 :=
  if ba.isZero && bb.isZero then
    pure bn.g2Zero
  else
    mapErr (bn.affineG2New ba bb) (.Other "invalid `b` argument, not on curve")

/-- The body of the element loop of `BN128Pair::run_inner`, for element `idx`. -/
def decodeElement (input : Bytes) (idx : Nat) : RustResult (G1 × G2) := do
  let ax ← readWord Fq.interpret input (idx * Consts.pairElementLen)
    (idx * Consts.pairElementLen + 32) "invalid `a` argument, `x` coordinate"
  let ay ← readWord Fq.interpret input (idx * Consts.pairElementLen + 32)
    (idx * Consts.pairElementLen + 64) "invalid `a` argument, `y` coordinate"
  let bay ← readWord Fq.interpret input (idx * Consts.pairElementLen + 64)
    (idx * Consts.pairElementLen + 96) "invalid `a` argument, `x` coordinate"
  let bax ← readWord Fq.interpret input (idx * Consts.pairElementLen + 96)
    (idx * Consts.pairElementLen + 128) "invalid `a` argument, `x` coordinate"
  let bby ← readWord Fq.interpret input (idx * Consts.pairElementLen + 128)
    (idx * Consts.pairElementLen + 160) "invalid `a` argument, `x` coordinate"
  let bbx ← readWord Fq.interpret input (idx * Consts.pairElementLen + 160)
    (idx * Consts.pairElementLen + 192) "invalid `a` argument, `x` coordinate"
  let a ← pointOfCoords ax ay "invalid `a` argument, not on curve"
  let b ← g2OfCoords bn (Fq2.new bax bay) (Fq2.new bbx bby)
  pure (a, b)

/-- `for idx in ..`: iteration `idx` and the `count - 1` after it, each pushing
its pair onto `vals`. -/
def pairLoop (input : Bytes) : (count idx : Nat) → List (G1 × G2) → RustResult (List (G1 × G2))
  | 0, _, vals => pure vals
  | count + 1, idx, vals => do
      let v ← decodeElement bn input idx
      pairLoop input count (idx + 1) (vals ++ [v])

/-- The gas formula of both forks, in `u64` arithmetic:
`per_point * input.len() as u64 / PAIR_ELEMENT_LEN as u64 + base`. -/
def pairGas (perPoint base : UInt64) (input : Bytes) : UInt64 :=
  perPoint * input.length.toUInt64 / Consts.pairElementLen.toUInt64 + base

/-- `BN128Pair::required_gas` of each fork. -/
def requiredGas : HardFork → Bytes → RustResult UInt64
  | .Byzantium, input => ok (pairGas Costs.byzantiumPairPerPoint Costs.byzantiumPairBase input)
  | .Istanbul, input => ok (pairGas Costs.istanbulPairPerPoint Costs.istanbulPairBase input)

variable [CommMonoid Gt] [DecidableEq Gt]

/-- `BN128Pair::run_inner`. -/
def runInner (input : Bytes) : PrecompileResult :=
  if input.length % Consts.pairElementLen ≠ 0 then
    err (.Other "input length invalid, must be multiple of 192")
  else do
    let output ← (if input.isEmpty then pure (1 : U256) else do
      let elements := input.length / Consts.pairElementLen
      let vals ← pairLoop bn input elements 0 []
      let mul := vals.foldl (fun s v => s * bn.pairing v.1 v.2) 1
      pure (if mul = 1 then 1 else 0))
    pure (.Returned, toBigEndian output, 0)

/-- `BN128Pair::run`: takes in elements and calculates the pair. -/
def run (fork : HardFork) (input : Bytes) (targetGas : UInt64) : PrecompileResult :=
  gasGate (requiredGas fork input) targetGas (runInner bn input)

end Model

section Spec

variable {G2 Gt : Type} (bn : Bn G2 Gt)

/-- Lane `k` of element `i`: the 32 bytes from `192 i + 32 k`, big-endian. -/
def lane (x : Bytes) (i k : Nat) : Nat := decodeBE (wordAt x (i * 192 + 32 * k))

/-- The point of element `i` is read from its lanes 0 and 1. -/
theorem pointAt_lanes (x : Bytes) (i : Nat) :
    pointAt x (i * 192) =
      if lane x i 0 < fqModulus ∧ lane x i 1 < fqModulus then
        pointOfCoords? (lane x i 0) (lane x i 1)
      else none :=
  rfl

/-- Element `i` of a pairing input as the pairing check reads it: all six lanes
below `p`; `A` the point `pointAt` describes at `192 i` (the point at infinity for
`(L0, L1) = (0, 0)`, otherwise a point of `y² = x³ + 3`); `B` with coordinates
`(Fq2(L3, L2), Fq2(L5, L4))`, the G2 identity when all four are zero and otherwise
a point `AffineG2::new` accepts. -/
def specElement (x : Bytes) (i : Nat) : Option (G1 × G2) :=
  if ∀ k < 6, lane x i k < fqModulus then do
    let A ← pointAt x (i * 192)
    let ba : Fq2 := ⟨lane x i 3, lane x i 2⟩
    let bb : Fq2 := ⟨lane x i 5, lane x i 4⟩
    let B ← if ba.isZero && bb.isZero then some bn.g2Zero else (bn.affineG2New ba bb).toOption
    pure (A, B)
  else none

/-- The pairs of all `len / 192` elements, when every element is valid. -/
def specPairs (x : Bytes) : Option (List (G1 × G2)) :=
  (List.range (x.length / 192)).mapM (specElement bn x)

/-- The messages of the element loop. -/
def elementErrors : List ExitError :=
  [.Other "invalid `a` argument, `x` coordinate", .Other "invalid `a` argument, `y` coordinate",
    .Other "invalid `a` argument, not on curve", .Other "invalid `b` argument, not on curve"]

variable [CommMonoid Gt] [DecidableEq Gt]

/-- `1` when the product of the pairings of the pairs is the identity of Gt,
otherwise `0`. -/
def pairingCheck (pairs : List (G1 × G2)) : U256 :=
  if (pairs.map fun ab => bn.pairing ab.1 ab.2).prod = 1 then 1 else 0

end Spec

section Lemmas

variable {G2 Gt : Type} (bn : Bn G2 Gt)

theorem g2OfCoords_ne_panic (ba bb : Fq2) : g2OfCoords bn ba bb ≠ panic := by
  unfold g2OfCoords
  split
  · simp
  · exact mapErr_ne_panic _ _

@[simp] theorem toOption_g2OfCoords (ba bb : Fq2) :
    (g2OfCoords bn ba bb).toOption =
      if ba.isZero && bb.isZero then some bn.g2Zero else (bn.affineG2New ba bb).toOption := by
  unfold g2OfCoords
  split
  · rfl
  · cases bn.affineG2New ba bb <;> rfl

theorem errorsIn_g2OfCoords (ba bb : Fq2) : ErrorsIn (· ∈ elementErrors) (g2OfCoords bn ba bb) := by
  unfold g2OfCoords
  split
  · exact errorsIn_ok _
  · exact errorsIn_mapErr _ (by decide)

/-- The body of the loop for an element inside the buffer: the six words it reads. -/
theorem decodeElement_eq {x : Bytes} {i : Nat} (h : i * 192 + 192 ≤ x.length) :
    decodeElement bn x i = (do
      let ax ← mapErr (Fq.interpret (wordAt x (i * 192)))
        (.Other "invalid `a` argument, `x` coordinate")
      let ay ← mapErr (Fq.interpret (wordAt x (i * 192 + 32)))
        (.Other "invalid `a` argument, `y` coordinate")
      let bay ← mapErr (Fq.interpret (wordAt x (i * 192 + 64)))
        (.Other "invalid `a` argument, `x` coordinate")
      let bax ← mapErr (Fq.interpret (wordAt x (i * 192 + 96)))
        (.Other "invalid `a` argument, `x` coordinate")
      let bby ← mapErr (Fq.interpret (wordAt x (i * 192 + 128)))
        (.Other "invalid `a` argument, `x` coordinate")
      let bbx ← mapErr (Fq.interpret (wordAt x (i * 192 + 160)))
        (.Other "invalid `a` argument, `x` coordinate")
      let a ← pointOfCoords ax ay "invalid `a` argument, not on curve"
      let b ← g2OfCoords bn (Fq2.new bax bay) (Fq2.new bbx bby)
      pure (a, b)) := by
  simp (disch := omega) only [decodeElement, Consts.pairElementLen, readWord_of_eq]

theorem decodeElement_ne_panic {x : Bytes} {i : Nat} (h : i * 192 + 192 ≤ x.length) :
    decodeElement bn x i ≠ panic := by
  rw [decodeElement_eq bn h]
  iterate 6 refine bind_ne_panic (mapErr_ne_panic _ _) fun _ _ => ?_
  exact bind_ne_panic (pointOfCoords_ne_panic _ _ _) fun _ _ =>
    bind_ne_panic (g2OfCoords_ne_panic bn _ _) fun _ _ => by simp

theorem errorsIn_decodeElement (x : Bytes) (i : Nat) :
    ErrorsIn (· ∈ elementErrors) (decodeElement bn x i) := by
  unfold decodeElement
  iterate 6 refine (errorsIn_readWord _ _ _ _ (by decide)).bind fun _ => ?_
  exact (errorsIn_pointOfCoords _ _ (by decide)).bind fun _ =>
    (errorsIn_g2OfCoords bn _ _).bind fun _ => errorsIn_ok _

theorem lt_of_interpret_eq_ok {buf : Bytes} {v : Fq} {e : ExitError}
    (h : mapErr (Fq.interpret buf) e = ok v) : decodeBE buf < fqModulus := by
  have hv := Fq.val_interpret (mapErr_eq_ok.mp h)
  rw [← hv]
  exact ZMod.val_lt v

/-- An element that decodes has all six lanes below `p`. -/
theorem lanes_of_decodeElement {x : Bytes} {i : Nat} {v : G1 × G2} (h : i * 192 + 192 ≤ x.length)
    (hv : decodeElement bn x i = ok v) : ∀ k < 6, lane x i k < fqModulus := by
  rw [decodeElement_eq bn h] at hv
  obtain ⟨_, h0, hv⟩ := bind_eq_ok.mp hv
  obtain ⟨_, h1, hv⟩ := bind_eq_ok.mp hv
  obtain ⟨_, h2, hv⟩ := bind_eq_ok.mp hv
  obtain ⟨_, h3, hv⟩ := bind_eq_ok.mp hv
  obtain ⟨_, h4, hv⟩ := bind_eq_ok.mp hv
  obtain ⟨_, h5, -⟩ := bind_eq_ok.mp hv
  intro k hk
  obtain rfl | rfl | rfl | rfl | rfl | rfl : k = 0 ∨ k = 1 ∨ k = 2 ∨ k = 3 ∨ k = 4 ∨ k = 5 := by
    omega
  · exact lt_of_interpret_eq_ok h0
  · exact lt_of_interpret_eq_ok h1
  · exact lt_of_interpret_eq_ok h2
  · exact lt_of_interpret_eq_ok h3
  · exact lt_of_interpret_eq_ok h4
  · exact lt_of_interpret_eq_ok h5

/-- When all six lanes are below `p`, the loop body builds the two points from
them. -/
theorem decodeElement_of_lanes {x : Bytes} {i : Nat} (h : i * 192 + 192 ≤ x.length)
    (hl : ∀ k < 6, lane x i k < fqModulus) :
    decodeElement bn x i = (do
      let a ← pointOfCoords (lane x i 0) (lane x i 1) "invalid `a` argument, not on curve"
      let b ← g2OfCoords bn (Fq2.new (lane x i 3) (lane x i 2)) (Fq2.new (lane x i 5) (lane x i 4))
      pure (a, b)) := by
  have h0 : Fq.interpret (wordAt x (i * 192)) = .ok (lane x i 0 : Fq) :=
    Fq.interpret_of_lt (hl 0 (by decide))
  have h1 : Fq.interpret (wordAt x (i * 192 + 32)) = .ok (lane x i 1 : Fq) :=
    Fq.interpret_of_lt (hl 1 (by decide))
  have h2 : Fq.interpret (wordAt x (i * 192 + 64)) = .ok (lane x i 2 : Fq) :=
    Fq.interpret_of_lt (hl 2 (by decide))
  have h3 : Fq.interpret (wordAt x (i * 192 + 96)) = .ok (lane x i 3 : Fq) :=
    Fq.interpret_of_lt (hl 3 (by decide))
  have h4 : Fq.interpret (wordAt x (i * 192 + 128)) = .ok (lane x i 4 : Fq) :=
    Fq.interpret_of_lt (hl 4 (by decide))
  have h5 : Fq.interpret (wordAt x (i * 192 + 160)) = .ok (lane x i 5 : Fq) :=
    Fq.interpret_of_lt (hl 5 (by decide))
  rw [decodeElement_eq bn h]
  simp only [h0, h1, h2, h3, h4, h5, mapErr_ok, ok_bind]

/-- A read of an `Fq` word under message `m` followed by a step that fails with
`m` whenever the word is in range fails with `m`. -/
theorem mapErr_interpret_bind_err {α : Type} {buf : Bytes} {m : ExitError} {f : Fq → RustResult α}
    (hf : decodeBE buf < fqModulus → f (decodeBE buf) = err m) :
    mapErr (Fq.interpret buf) m >>= f = err m := by
  by_cases hb : decodeBE buf < fqModulus
  · rw [Fq.interpret_of_lt hb, mapErr_ok, ok_bind, hf hb]
  · rw [Fq.interpret_of_le (Nat.le_of_not_lt hb), mapErr_error, err_bind]

/-- The four `b` lanes are read under the message of the `a` argument's `x`
coordinate: an element whose `a` lanes are below `p` and one of whose `b` lanes
is not fails with that message. -/
theorem decodeElement_b_lane {x : Bytes} {i : Nat} (h : i * 192 + 192 ≤ x.length)
    (ha : lane x i 0 < fqModulus ∧ lane x i 1 < fqModulus)
    (hb : ∃ k, 2 ≤ k ∧ k < 6 ∧ fqModulus ≤ lane x i k) :
    decodeElement bn x i = err (.Other "invalid `a` argument, `x` coordinate") := by
  have h0 : Fq.interpret (wordAt x (i * 192)) = .ok (lane x i 0 : Fq) := Fq.interpret_of_lt ha.1
  have h1 : Fq.interpret (wordAt x (i * 192 + 32)) = .ok (lane x i 1 : Fq) :=
    Fq.interpret_of_lt ha.2
  rw [decodeElement_eq bn h, h0, h1, mapErr_ok, ok_bind, mapErr_ok, ok_bind]
  refine mapErr_interpret_bind_err fun h2 => mapErr_interpret_bind_err fun h3 =>
    mapErr_interpret_bind_err fun h4 => mapErr_interpret_bind_err fun h5 => ?_
  exfalso
  obtain ⟨k, hk2, hk6, hk⟩ := hb
  obtain rfl | rfl | rfl | rfl : k = 2 ∨ k = 3 ∨ k = 4 ∨ k = 5 := by omega
  · exact Nat.not_lt.mpr hk h2
  · exact Nat.not_lt.mpr hk h3
  · exact Nat.not_lt.mpr hk h4
  · exact Nat.not_lt.mpr hk h5

/-- Step lemma: one iteration inside the buffer never panics, and returns `Ok`
exactly with the pair `specElement` describes. -/
theorem decodeElement_toOption {x : Bytes} {i : Nat} (h : i * 192 + 192 ≤ x.length) :
    decodeElement bn x i ≠ panic ∧ (decodeElement bn x i).toOption = specElement bn x i := by
  refine ⟨decodeElement_ne_panic bn h, ?_⟩
  by_cases hl : ∀ k < 6, lane x i k < fqModulus
  · rw [specElement, if_pos hl, decodeElement_of_lanes bn h hl, pointAt_lanes,
      if_pos ⟨hl 0 (by decide), hl 1 (by decide)⟩]
    simp only [toOption_bind, toOption_pointOfCoords, toOption_g2OfCoords, toOption_ok, Fq2.new]
    congr 1
    funext A
    split <;> simp
  · rw [specElement, if_neg hl]
    cases hv : decodeElement bn x i with
    | ok v => exact absurd (lanes_of_decodeElement bn h hv) hl
    | err e => rfl
    | panic => rfl

/-- Run lemma: the loop from iteration `idx`, inside the buffer, never panics and
returns `Ok` exactly when every element it visits is valid, with their pairs
pushed in order after `vals`. -/
theorem pairLoop_toOption {x : Bytes} (count : Nat) : ∀ (idx : Nat) (vals : List (G1 × G2)),
    (idx + count) * 192 ≤ x.length →
    pairLoop bn x count idx vals ≠ panic ∧
    (pairLoop bn x count idx vals).toOption =
      ((List.range' idx count).mapM (specElement bn x)).map (vals ++ ·) := by
  induction count with
  | zero =>
      intro idx vals _
      simp [pairLoop, List.mapM.loop]
  | succ count ih =>
      intro idx vals h
      have hstep := decodeElement_toOption bn (x := x) (i := idx) (by rw [Nat.add_mul] at h; omega)
      have hrest := fun v => ih (idx + 1) (vals ++ [v]) (by rw [Nat.add_mul] at h ⊢; omega)
      refine ⟨bind_ne_panic hstep.1 fun v _ => (hrest v).1, ?_⟩
      simp only [pairLoop, toOption_bind, hstep.2, (hrest _).2, List.range'_succ, List.mapM_cons]
      cases specElement bn x idx <;> cases (List.range' (idx + 1) count).mapM (specElement bn x) <;>
        simp

theorem errorsIn_pairLoop (x : Bytes) (count : Nat) :
    ∀ (idx : Nat) (vals : List (G1 × G2)), ErrorsIn (· ∈ elementErrors) (pairLoop bn x count idx vals) := by
  induction count with
  | zero =>
      intro idx vals
      exact errorsIn_ok _
  | succ count ih =>
      intro idx vals
      exact (errorsIn_decodeElement bn x idx).bind fun v => ih (idx + 1) (vals ++ [v])

/-- Run lemma for errors: the loop from iteration `idx` fails with `e` exactly
when one of its elements fails with `e` and every element before it decodes. -/
theorem pairLoop_eq_err {x : Bytes} {e : ExitError} (count : Nat) :
    ∀ (idx : Nat) (vals : List (G1 × G2)), pairLoop bn x count idx vals = err e ↔
      ∃ i < count, (∀ j < i, ∃ v, decodeElement bn x (idx + j) = ok v) ∧
        decodeElement bn x (idx + i) = err e := by
  induction count with
  | zero =>
      intro idx vals
      simp [pairLoop]
  | succ count ih =>
      intro idx vals
      have hshift : ∀ j, idx + 1 + j = idx + (j + 1) := fun j => by omega
      rw [Nat.exists_lt_succ_left]
      simp only [Nat.forall_lt_succ_left, Nat.add_zero]
      cases hd : decodeElement bn x idx <;> simp [pairLoop, hd, ih, hshift]

variable [CommMonoid Gt]

/-- The fold of the pairings is their product in Gt. -/
theorem foldl_pairing (vals : List (G1 × G2)) :
    vals.foldl (fun s v => s * bn.pairing v.1 v.2) 1 = (vals.map fun v => bn.pairing v.1 v.2).prod := by
  rw [List.prod_eq_foldl, List.foldl_map]

variable [DecidableEq Gt]

/-- `run_inner` on an input made of whole elements: no panic, and `Ok` exactly
when every element is valid, with the pairing check of their pairs. -/
theorem runInner_toOption {x : Bytes} (h : x.length % 192 = 0) :
    runInner bn x ≠ panic ∧
    (runInner bn x).toOption =
      (specPairs bn x).map fun pairs => (.Returned, toBigEndian (pairingCheck bn pairs), 0) := by
  have hloop := pairLoop_toOption bn (x := x) (x.length / 192) 0 [] (by
    rw [Nat.zero_add, Nat.div_mul_cancel (Nat.dvd_of_mod_eq_zero h)])
  have hframe : ¬ (x.length % Consts.pairElementLen ≠ 0) := by simpa [Consts.pairElementLen] using h
  rw [runInner, if_neg hframe]
  simp only [Consts.pairElementLen]
  split
  · next he =>
      rw [List.isEmpty_iff.mp he]
      simp [specPairs, pairingCheck, List.mapM.loop]
  · refine ⟨bind_ne_panic (bind_ne_panic hloop.1 fun _ _ => by simp) fun _ _ => by simp, ?_⟩
    simp only [Consts.pairElementLen, toOption_bind, hloop.2, specPairs, List.range_eq_range']
    cases (List.range' 0 (x.length / 192)).mapM (specElement bn x) <;>
      simp [pairingCheck, foldl_pairing]

theorem errorsIn_runInner {x : Bytes} (h : x.length % 192 = 0) :
    ErrorsIn (· ∈ elementErrors) (runInner bn x) := by
  have hframe : ¬ (x.length % Consts.pairElementLen ≠ 0) := by simpa [Consts.pairElementLen] using h
  rw [runInner, if_neg hframe]
  refine ErrorsIn.bind ?_ fun _ => errorsIn_ok _
  split
  · exact errorsIn_ok _
  · exact (errorsIn_pairLoop bn x _ 0 []).bind fun _ => errorsIn_ok _

/-- On whole elements, `run_inner` fails exactly with the failure of its loop. -/
theorem runInner_eq_err {x : Bytes} {e : ExitError} (h : x.length % 192 = 0) :
    runInner bn x = err e ↔ pairLoop bn x (x.length / 192) 0 [] = err e := by
  have hframe : ¬ (x.length % Consts.pairElementLen ≠ 0) := by simpa [Consts.pairElementLen] using h
  rw [runInner, if_neg hframe]
  simp only [Consts.pairElementLen]
  split
  · next he =>
      rw [List.isEmpty_iff.mp he]
      simp [pairLoop]
  · cases pairLoop bn x (x.length / 192) 0 [] <;> simp

theorem runInner_of_mod_ne_zero {x : Bytes} (h : x.length % 192 ≠ 0) :
    runInner bn x = err (.Other "input length invalid, must be multiple of 192") := by
  rw [runInner, if_pos (by simpa [Consts.pairElementLen] using h)]

theorem runInner_ne_panic (x : Bytes) : runInner bn x ≠ panic := by
  by_cases h : x.length % 192 = 0
  · exact (runInner_toOption bn h).1
  · rw [runInner_of_mod_ne_zero bn h]
    simp

/-- Every error of `run_inner` is the framing error or a message of the element
loop. -/
theorem errorsIn_runInner_all (x : Bytes) :
    ErrorsIn (· ∈ .Other "input length invalid, must be multiple of 192" :: elementErrors)
      (runInner bn x) := by
  by_cases h : x.length % 192 = 0
  · exact (errorsIn_runInner bn h).mono fun _ he => List.mem_cons_of_mem _ he
  · rw [runInner_of_mod_ne_zero bn h]
    intro e he
    cases he
    exact List.mem_cons_self _ _

/-- Every `Ok` of `run_inner` carries the 32-byte word of `0` or of `1`. -/
theorem runInner_eq_ok {x : Bytes} {out : ExitSucceed × Bytes × UInt64}
    (h : runInner bn x = ok out) :
    ∃ v : U256, (v = 0 ∨ v = 1) ∧ out = (.Returned, toBigEndian v, 0) := by
  unfold runInner at h
  split at h
  · cases h
  · obtain ⟨v, hv, h⟩ := bind_eq_ok.mp h
    refine ⟨v, ?_, (ok.inj h).symm⟩
    split at hv
    · exact .inr (ok.inj hv).symm
    · obtain ⟨_, -, hv⟩ := bind_eq_ok.mp hv
      rw [← ok.inj hv]
      split <;> simp

end Lemmas

end BN128Pair

end AuroraBn128
