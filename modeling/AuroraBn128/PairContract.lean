import AuroraBn128.Pair
import Mathlib.Algebra.PUnitInstances.Algebra

/-!
# aurora-engine bn128: the contract of ECPAIRING

`BN128Pair::run_inner` against its description: the framing error exactly for
lengths that are not a multiple of 192; otherwise `Ok` exactly when every
192-byte element is valid, with the pairing check of the decoded pairs, and an
`Err` in every other case.  Each element is decoded from its own window, so the
result does not depend on the order of the elements.  An input that fails returns
the error of its first invalid element.

**Results.**
* `runInner_pairing_contract`: the contract, with the pairs `specPairs` describes
  from the lanes alone, and its independence of the order of the elements.
* `runInner_first_failure`: an `Err` is the error of the first element that fails.
* `runInner_b_lane_message`: a `b` lane out of range is reported under the message
  of the `a` argument's `x` coordinate.
-/

namespace AuroraBn128

open RustResult

namespace BN128Pair

section Windows

variable {G2 Gt : Type} (bn : Bn G2 Gt)

/-- An element is decoded from its six lanes alone. -/
theorem specElement_congr {x y : Bytes} {i j : Nat} (hl : ∀ k < 6, lane x i k = lane y j k) :
    specElement bn x i = specElement bn y j := by
  have hc : (∀ k < 6, lane x i k < fqModulus) ↔ ∀ k < 6, lane y j k < fqModulus :=
    forall₂_congr fun k hk => by rw [hl k hk]
  simp only [specElement, pointAt_lanes, hc, hl 0 (by decide), hl 1 (by decide),
    hl 2 (by decide), hl 3 (by decide), hl 4 (by decide), hl 5 (by decide)]

/-- The first element of `e ++ r` is decoded from `e` alone. -/
theorem specElement_append_zero {e : Bytes} (r : Bytes) (he : e.length = 192) :
    specElement bn (e ++ r) 0 = specElement bn e 0 :=
  specElement_congr bn fun k hk => by rw [lane, lane, wordAt_append_left (by omega)]

/-- Behind one element `l`, element `i + 1` of `l ++ r` is element `i` of `r`. -/
theorem specElement_append_succ {l : Bytes} (r : Bytes) (hl : l.length = 192) (i : Nat) :
    specElement bn (l ++ r) (i + 1) = specElement bn r i := by
  refine specElement_congr bn fun k _ => ?_
  rw [lane, lane, wordAt_append_right (by rw [hl]; omega), hl,
    show (i + 1) * 192 + 32 * k - 192 = i * 192 + 32 * k by omega]

theorem mapM_specElement_append {l : Bytes} (r : Bytes) (hl : l.length = 192) (n : Nat) :
    ∀ s, (List.range' (s + 1) n).mapM (specElement bn (l ++ r)) =
      (List.range' s n).mapM (specElement bn r) := by
  induction n with
  | zero =>
      intro s
      rfl
  | succ n ih =>
      intro s
      simp only [List.range'_succ, List.mapM_cons, specElement_append_succ bn r hl, ih]

theorem length_flatten_of_elements {es : List Bytes} (hes : ∀ e ∈ es, e.length = 192) :
    es.flatten.length = es.length * 192 := by
  induction es with
  | nil =>
      rfl
  | cons e es ih =>
      rw [List.flatten_cons, List.length_append, hes e (List.mem_cons_self e es),
        ih fun e' h' => hes e' (List.mem_cons_of_mem e h'), List.length_cons, Nat.succ_mul]
      omega

/-- The elements of a concatenation of 192-byte windows are the windows, each
decoded on its own. -/
theorem specPairs_flatten {es : List Bytes} (hes : ∀ e ∈ es, e.length = 192) :
    specPairs bn es.flatten = es.mapM fun e => specElement bn e 0 := by
  rw [specPairs, length_flatten_of_elements hes, Nat.mul_div_cancel _ (by decide)]
  induction es with
  | nil =>
      rfl
  | cons e es ih =>
      have he := hes e (List.mem_cons_self e es)
      rw [List.flatten_cons, List.length_cons, List.range_eq_range', List.range'_succ,
        List.mapM_cons, List.mapM_cons, specElement_append_zero bn _ he,
        mapM_specElement_append bn _ he, ← List.range_eq_range',
        ih fun e' h' => hes e' (List.mem_cons_of_mem e h')]

end Windows

section Perm

variable {α β M : Type} [CommMonoid M] (g : α → Option β) (F : β → M)

theorem map_prod_mapM_cons (a : α) (l : List α) :
    ((a :: l).mapM g).map (fun r => (r.map F).prod) =
      (g a).bind fun b => ((l.mapM g).map fun r => (r.map F).prod).map (F b * ·) := by
  rw [List.mapM_cons]
  cases g a <;> cases l.mapM g <;> rfl

/-- Decoding a permuted list fails or succeeds together with the original, and
the products of the decoded values agree. -/
theorem Perm.map_prod_mapM {l l' : List α} (p : l.Perm l') :
    (l.mapM g).map (fun r => (r.map F).prod) = (l'.mapM g).map (fun r => (r.map F).prod) := by
  induction p with
  | nil =>
      rfl
  | cons a _ ih =>
      rw [map_prod_mapM_cons, map_prod_mapM_cons, ih]
  | swap a b l =>
      simp only [map_prod_mapM_cons]
      cases g a <;> cases g b <;> cases (l.mapM g).map (fun r => (r.map F).prod) <;>
        simp [mul_left_comm]
  | trans _ _ ih₁ ih₂ =>
      exact ih₁.trans ih₂

end Perm

section Contract

variable {G2 Gt : Type} [CommMonoid Gt] [DecidableEq Gt] (bn : Bn G2 Gt)

/-- The contract of `BN128Pair::run_inner`: the framing error exactly when the
length is not a multiple of 192; otherwise no panic, `Ok` exactly when every
element is valid, with the 32-byte pairing check of the pairs in element order,
and an `Err` in every other case; and the result is the same for the elements in
any order. -/
theorem runInner_pairing_contract (x : Bytes) :
    (runInner bn x = err (.Other "input length invalid, must be multiple of 192") ↔
      x.length % 192 ≠ 0) ∧
    (x.length % 192 = 0 →
      runInner bn x ≠ panic ∧
      (runInner bn x).toOption =
        (specPairs bn x).map fun pairs => (.Returned, toBigEndian (pairingCheck bn pairs), 0)) ∧
    (∀ es es' : List Bytes, (∀ e ∈ es, e.length = 192) → es.Perm es' →
      (runInner bn es.flatten).toOption = (runInner bn es'.flatten).toOption) := by
  refine ⟨⟨fun he h0 => ?_, fun h => ?_⟩, fun h => runInner_toOption bn h,
    fun es es' hes hp => ?_⟩
  · exact absurd (errorsIn_runInner bn h0 _ he) (by decide)
  · simp [runInner, Consts.pairElementLen, h]
  · have hes' : ∀ e ∈ es', e.length = 192 := fun e he => hes e (hp.mem_iff.mpr he)
    have hwhole : ∀ es : List Bytes, (∀ e ∈ es, e.length = 192) → es.flatten.length % 192 = 0 :=
      fun es h => by rw [length_flatten_of_elements h]; simp
    have hfactor : ∀ o : Option (List (G1 × G2)),
        o.map (fun pairs => (ExitSucceed.Returned, toBigEndian (pairingCheck bn pairs), (0 : UInt64))) =
          (o.map fun r => (r.map fun ab => bn.pairing ab.1 ab.2).prod).map
            fun v => (.Returned, toBigEndian (if v = 1 then 1 else 0), 0) := by
      intro o
      cases o <;> rfl
    rw [(runInner_toOption bn (hwhole es hes)).2, (runInner_toOption bn (hwhole es' hes')).2,
      specPairs_flatten bn hes, specPairs_flatten bn hes', hfactor, hfactor,
      Perm.map_prod_mapM _ _ hp]

/-- `run_inner` of whole elements fails with `e` exactly when some element fails
with `e` and every element before it decodes: the loop stops at the first invalid
element and returns its error. -/
theorem runInner_first_failure {x : Bytes} (h : x.length % 192 = 0) (e : ExitError) :
    runInner bn x = err e ↔ ∃ i < x.length / 192,
      (∀ j < i, ∃ v, decodeElement bn x j = ok v) ∧ decodeElement bn x i = err e := by
  rw [runInner_eq_err bn h, pairLoop_eq_err]
  simp only [Nat.zero_add]

set_option maxRecDepth 2000 in
/-- A valid element of zeros, then one with zero `a` lanes and `0xff` in every `b`
lane: the first decodes, the second fails, and its error is the loop's. -/
theorem runInner_first_failure_second_element :
    (List.replicate 256 0 ++ List.replicate 128 0xff : Bytes).length % 192 = 0 ∧
    (∃ i < (List.replicate 256 0 ++ List.replicate 128 0xff : Bytes).length / 192,
      (∀ j < i, ∃ v,
        decodeElement unitBn (List.replicate 256 0 ++ List.replicate 128 0xff : Bytes) j = ok v) ∧
      decodeElement unitBn (List.replicate 256 0 ++ List.replicate 128 0xff : Bytes) i =
        err (.Other "invalid `a` argument, `x` coordinate")) ∧
    runInner unitBn (List.replicate 256 0 ++ List.replicate 128 0xff : Bytes) =
      err (.Other "invalid `a` argument, `x` coordinate") :=
  have hlen : (List.replicate 256 0 ++ List.replicate 128 0xff : Bytes).length % 192 = 0 := by
    simp only [List.length_append, List.length_replicate]
  have hfail : ∃ i < (List.replicate 256 0 ++ List.replicate 128 0xff : Bytes).length / 192,
      (∀ j < i, ∃ v,
        decodeElement unitBn (List.replicate 256 0 ++ List.replicate 128 0xff : Bytes) j = ok v) ∧
      decodeElement unitBn (List.replicate 256 0 ++ List.replicate 128 0xff : Bytes) i =
        err (.Other "invalid `a` argument, `x` coordinate") :=
    ⟨1, by simp only [List.length_append, List.length_replicate]; decide,
      fun j hj => ⟨(.zero, ()), by rw [Nat.lt_one_iff.mp hj]; decide⟩, by decide⟩
  ⟨hlen, hfail, (runInner_first_failure unitBn hlen _).mpr hfail⟩

/-- A `b` lane out of range is reported as the `a` argument's `x` coordinate:
when every element before `i` decodes and element `i` has its `a` lanes below `p`
and a `b` lane that is not, `run_inner` returns that message. -/
theorem runInner_b_lane_message (x : Bytes) (i : Nat) (h : x.length % 192 = 0)
    (hi : i < x.length / 192) (hpre : ∀ j < i, ∃ v, decodeElement bn x j = ok v)
    (ha : lane x i 0 < fqModulus ∧ lane x i 1 < fqModulus)
    (hb : ∃ k, 2 ≤ k ∧ k < 6 ∧ fqModulus ≤ lane x i k) :
    runInner bn x = err (.Other "invalid `a` argument, `x` coordinate") := by
  rw [runInner_eq_err bn h, pairLoop_eq_err]
  simp only [Nat.zero_add]
  exact ⟨i, hi, hpre, decodeElement_b_lane bn (by omega) ha hb⟩

set_option maxRecDepth 2000 in
/-- The same input at its second element: the first decodes, and the second has
its `a` lanes below `p` and its `b` lanes at `0xff`. -/
theorem runInner_b_lane_message_second_element :
    (List.replicate 256 0 ++ List.replicate 128 0xff : Bytes).length % 192 = 0 ∧
    1 < (List.replicate 256 0 ++ List.replicate 128 0xff : Bytes).length / 192 ∧
    (∀ j < 1, ∃ v,
      decodeElement unitBn (List.replicate 256 0 ++ List.replicate 128 0xff : Bytes) j = ok v) ∧
    (lane (List.replicate 256 0 ++ List.replicate 128 0xff : Bytes) 1 0 < fqModulus ∧
      lane (List.replicate 256 0 ++ List.replicate 128 0xff : Bytes) 1 1 < fqModulus) ∧
    (∃ k, 2 ≤ k ∧ k < 6 ∧
      fqModulus ≤ lane (List.replicate 256 0 ++ List.replicate 128 0xff : Bytes) 1 k) ∧
    runInner unitBn (List.replicate 256 0 ++ List.replicate 128 0xff : Bytes) =
      err (.Other "invalid `a` argument, `x` coordinate") :=
  have hlen : (List.replicate 256 0 ++ List.replicate 128 0xff : Bytes).length = 384 := by
    simp only [List.length_append, List.length_replicate]
  have hpre : ∀ j < 1, ∃ v,
      decodeElement unitBn (List.replicate 256 0 ++ List.replicate 128 0xff : Bytes) j = ok v :=
    fun j hj => ⟨(.zero, ()), by rw [Nat.lt_one_iff.mp hj]; decide⟩
  have ha : lane (List.replicate 256 0 ++ List.replicate 128 0xff : Bytes) 1 0 < fqModulus ∧
      lane (List.replicate 256 0 ++ List.replicate 128 0xff : Bytes) 1 1 < fqModulus := by decide
  have hb : ∃ k, 2 ≤ k ∧ k < 6 ∧
      fqModulus ≤ lane (List.replicate 256 0 ++ List.replicate 128 0xff : Bytes) 1 k :=
    ⟨2, by decide⟩
  ⟨by rw [hlen], by rw [hlen]; decide, hpre, ha, hb,
    runInner_b_lane_message unitBn _ 1 (by rw [hlen]) (by rw [hlen]; decide) hpre ha hb⟩

end Contract

end BN128Pair

end AuroraBn128
