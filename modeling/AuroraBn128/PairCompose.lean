import AuroraBn128.PairContract

/-!
# aurora-engine bn128: ECPAIRING on concatenated inputs

A pairing input is a sequence of 192-byte elements, so two inputs can be
concatenated into one: a caller batching pairing checks does exactly that.  This
module relates `BN128Pair::run_inner` on `x ++ y` to its runs on `x` and on `y`.

**Model.**  No new definition: the element loop `pairLoop` on `x ++ y` is split
into the loop over the elements of `x` and the loop over those of `y`.
* `decodeElement_append_left`, `decodeElement_append_shift`: an element of `x ++ y`
  is an element of `x`, or, behind the `m` elements of `x`, one of `y`.
* `pairLoop_add`: `count = a + b` iterations are `a` iterations, then `b` more
  from where they stopped (sequencing).
* `runInner_append_eq`: `run_inner (x ++ y)` decodes the pairs of `x`, then those
  of `y`, and checks the product of all of them.

**Results.**
* `runInner_append`: the concatenation is accepted exactly when both parts are;
  it fails with the error of `x`, or, when `x` is accepted, with that of `y`; and a
  part that checks to `1` is neutral on either side.
* `runInner_zero_element`: the element of 192 zero bytes decodes to the two
  identities and, when `pairing(O, O) = 1`, is neutral on either side of every
  input.
-/

namespace AuroraBn128

open RustResult

namespace BN128Pair

section Concat

variable {G2 Gt : Type} (bn : Bn G2 Gt)

/-- An element inside the prefix `l` is decoded from `l`. -/
theorem decodeElement_append_left {l : Bytes} (r : Bytes) (i : Nat) (h : i * 192 + 192 ≤ l.length) :
    decodeElement bn (l ++ r) i = decodeElement bn l i := by
  simp (disch := omega) only [decodeElement, Consts.pairElementLen, readWord_append_left]

/-- Behind the `m` elements of `l`, element `m + j` of `l ++ r` is element `j` of `r`. -/
theorem decodeElement_append_shift {l : Bytes} (r : Bytes) {m : Nat} (hl : l.length = m * 192)
    (j : Nat) : decodeElement bn (l ++ r) (m + j) = decodeElement bn r j := by
  have hshift : (m + j) * 192 = l.length + j * 192 := by rw [hl, Nat.add_mul]
  simp only [decodeElement, Consts.pairElementLen, hshift, Nat.add_assoc, readWord_append_shift]

/-- Prefix lemma: a loop that stays inside `l` runs on `l ++ r` as on `l`. -/
theorem pairLoop_append_left {l : Bytes} (r : Bytes) (count : Nat) :
    ∀ idx vals, (idx + count) * 192 ≤ l.length →
      pairLoop bn (l ++ r) count idx vals = pairLoop bn l count idx vals := by
  induction count with
  | zero =>
      intro idx vals _
      rfl
  | succ count ih =>
      intro idx vals h
      rw [pairLoop, pairLoop, decodeElement_append_left bn r idx (by omega)]
      congr 1
      funext v
      exact ih (idx + 1) _ (by omega)

/-- Shifted-suffix lemma: behind the `m` elements of `l`, the loop runs on
`l ++ r` as on `r`. -/
theorem pairLoop_append_shift {l : Bytes} (r : Bytes) {m : Nat} (hl : l.length = m * 192)
    (count : Nat) :
    ∀ idx vals, pairLoop bn (l ++ r) count (m + idx) vals = pairLoop bn r count idx vals := by
  induction count with
  | zero =>
      intro idx vals
      rfl
  | succ count ih =>
      intro idx vals
      rw [pairLoop, pairLoop, decodeElement_append_shift bn r hl]
      congr 1
      funext v
      exact ih (idx + 1) _

/-- Sequencing: `a + b` iterations are `a` iterations, then `b` more from where
they stopped. -/
theorem pairLoop_add (x : Bytes) (a b : Nat) : ∀ idx vals,
    pairLoop bn x (a + b) idx vals =
      pairLoop bn x a idx vals >>= fun vs => pairLoop bn x b (idx + a) vs := by
  induction a with
  | zero =>
      intro idx vals
      rw [Nat.zero_add, Nat.add_zero]
      rfl
  | succ a ih =>
      intro idx vals
      rw [Nat.add_right_comm, pairLoop, pairLoop, bind_bind]
      congr 1
      funext v
      rw [ih, Nat.add_assoc, Nat.add_comm 1 a]

/-- The pairs pushed before the loop stay in front of those it pushes. -/
theorem pairLoop_vals (x : Bytes) (count : Nat) : ∀ idx vals,
    pairLoop bn x count idx vals = pairLoop bn x count idx [] >>= fun vs => ok (vals ++ vs) := by
  induction count with
  | zero =>
      intro idx vals
      simp [pairLoop]
  | succ count ih =>
      intro idx vals
      rw [pairLoop, pairLoop, bind_bind]
      congr 1
      funext v
      rw [ih _ (vals ++ [v]), ih _ ([] ++ [v]), bind_bind]
      simp

/-- The element of 192 zero bytes decodes to the point at infinity and the
identity of G2. -/
theorem decodeElement_zero : decodeElement bn (List.replicate 192 0) 0 = ok (.zero, bn.g2Zero) := by
  have hw : ∀ k, k + 32 ≤ 192 → wordAt (List.replicate 192 (0 : UInt8)) k = List.replicate 32 0 :=
    fun k hk => by rw [wordAt, List.drop_replicate, List.take_replicate, Nat.min_eq_left (by omega)]
  have hlen : 0 * 192 + 192 ≤ (List.replicate 192 (0 : UInt8)).length :=
    (List.length_replicate _ _).ge
  simp (disch := omega) only [decodeElement_eq bn hlen, Nat.zero_mul, Nat.zero_add, hw,
    Fq.interpret_replicate_zero]
  simp [pointOfCoords, g2OfCoords, Fq2.new, Fq2.isZero]

variable [CommMonoid Gt] [DecidableEq Gt]

/-- `run_inner` of whole elements: the pairs of the loop, then their check,
the empty input included. -/
theorem runInner_of_framed {x : Bytes} (h : x.length % 192 = 0) :
    runInner bn x = pairLoop bn x (x.length / 192) 0 [] >>= fun vals =>
      ok (.Returned, toBigEndian (pairingCheck bn vals), 0) := by
  have hframe : ¬ (x.length % Consts.pairElementLen ≠ 0) := by simpa [Consts.pairElementLen] using h
  rw [runInner, if_neg hframe]
  simp only [Consts.pairElementLen]
  split
  · next he =>
      rw [List.isEmpty_iff.mp he]
      simp [pairLoop, pairingCheck]
  · rw [bind_bind]
    congr 1
    funext vals
    simp [pairingCheck, foldl_pairing]

/-- `run_inner (x ++ y)` for inputs of whole elements: the pairs of `x`, then
those of `y`, and the check of all of them. -/
theorem runInner_append_eq {x y : Bytes} (hx : x.length % 192 = 0) (hy : y.length % 192 = 0) :
    runInner bn (x ++ y) =
      pairLoop bn x (x.length / 192) 0 [] >>= fun vx =>
        pairLoop bn y (y.length / 192) 0 [] >>= fun vy =>
          ok (.Returned, toBigEndian (pairingCheck bn (vx ++ vy)), 0) := by
  have hl : x.length = x.length / 192 * 192 := (Nat.div_mul_cancel (Nat.dvd_of_mod_eq_zero hx)).symm
  have hxy : (x ++ y).length % 192 = 0 := by simp only [List.length_append]; omega
  have hn : (x ++ y).length / 192 = x.length / 192 + y.length / 192 := by
    simp only [List.length_append]
    omega
  rw [runInner_of_framed bn hxy, hn, pairLoop_add,
    pairLoop_append_left bn y _ 0 [] (by rw [Nat.zero_add, ← hl]), bind_bind]
  congr 1
  funext vx
  rw [show 0 + x.length / 192 = x.length / 192 + 0 by omega, pairLoop_append_shift bn y hl,
    pairLoop_vals, bind_bind]
  simp

/-- An input of whole elements that checks to `1`: its loop returns pairs whose
pairings multiply to the identity. -/
theorem pairLoop_of_check_one {x : Bytes} (hx : x.length % 192 = 0)
    (h : runInner bn x = ok (.Returned, toBigEndian 1, 0)) :
    ∃ vals, pairLoop bn x (x.length / 192) 0 [] = ok vals ∧
      (vals.map fun ab => bn.pairing ab.1 ab.2).prod = 1 := by
  rw [runInner_of_framed bn hx] at h
  obtain ⟨vals, hvals, h⟩ := bind_eq_ok.mp h
  refine ⟨vals, hvals, ?_⟩
  have hcheck := toBigEndian_injective (congrArg (fun o => o.2.1) (ok.inj h))
  unfold pairingCheck at hcheck
  split at hcheck
  · assumption
  · exact absurd hcheck (by decide)

/-- A part that checks to `1` on the left of an input leaves its answer unchanged. -/
theorem runInner_append_of_check_one_left {x : Bytes} (y : Bytes) (hx : x.length % 192 = 0)
    (h : runInner bn x = ok (.Returned, toBigEndian 1, 0)) :
    runInner bn (x ++ y) = runInner bn y := by
  by_cases hy : y.length % 192 = 0
  · obtain ⟨vx, hvx, hone⟩ := pairLoop_of_check_one bn hx h
    rw [runInner_append_eq bn hx hy, hvx, ok_bind, runInner_of_framed bn hy]
    simp only [pairingCheck, List.map_append, List.prod_append, hone, one_mul]
  · rw [runInner_of_mod_ne_zero bn hy,
      runInner_of_mod_ne_zero bn (by simp only [List.length_append]; omega)]

/-- A part that checks to `1` on the right of an input leaves its answer unchanged. -/
theorem runInner_append_of_check_one_right (x : Bytes) {y : Bytes} (hy : y.length % 192 = 0)
    (h : runInner bn y = ok (.Returned, toBigEndian 1, 0)) :
    runInner bn (x ++ y) = runInner bn x := by
  by_cases hx : x.length % 192 = 0
  · obtain ⟨vy, hvy, hone⟩ := pairLoop_of_check_one bn hy h
    rw [runInner_append_eq bn hx hy, runInner_of_framed bn hx]
    congr 1
    funext vx
    simp only [hvy, ok_bind, pairingCheck, List.map_append, List.prod_append, hone, mul_one]
  · rw [runInner_of_mod_ne_zero bn hx,
      runInner_of_mod_ne_zero bn (by simp only [List.length_append]; omega)]

/-- ECPAIRING on the concatenation of two inputs of whole elements: accepted
exactly when both are; an error of `x`, or, once `x` is accepted, an error of `y`,
is the error of the concatenation; and a part that checks to `1` is neutral on
either side. -/
theorem runInner_append (x y : Bytes) (hx : x.length % 192 = 0) (hy : y.length % 192 = 0) :
    ((∃ r, runInner bn (x ++ y) = ok r) ↔ (∃ r, runInner bn x = ok r) ∧ ∃ r, runInner bn y = ok r) ∧
    (∀ e, runInner bn (x ++ y) = err e ↔
      runInner bn x = err e ∨ (∃ r, runInner bn x = ok r) ∧ runInner bn y = err e) ∧
    (runInner bn x = ok (.Returned, toBigEndian 1, 0) → runInner bn (x ++ y) = runInner bn y) ∧
    (runInner bn y = ok (.Returned, toBigEndian 1, 0) → runInner bn (x ++ y) = runInner bn x) := by
  refine ⟨?_, ?_, runInner_append_of_check_one_left bn y hx,
    runInner_append_of_check_one_right bn x hy⟩ <;>
  · rw [runInner_append_eq bn hx hy, runInner_of_framed bn hx, runInner_of_framed bn hy]
    cases pairLoop bn x (x.length / 192) 0 [] <;> cases pairLoop bn y (y.length / 192) 0 [] <;> simp

/-- Two zero elements, each accepted. -/
theorem runInner_append_zero_elements :
    (List.replicate 192 0 : Bytes).length % 192 = 0 ∧
    (List.replicate 192 0 : Bytes).length % 192 = 0 ∧
    (((∃ r, runInner unitBn (List.replicate 192 0 ++ List.replicate 192 0) = ok r) ↔
        (∃ r, runInner unitBn (List.replicate 192 0) = ok r) ∧
          ∃ r, runInner unitBn (List.replicate 192 0) = ok r) ∧
      (∀ e, runInner unitBn (List.replicate 192 0 ++ List.replicate 192 0) = err e ↔
        runInner unitBn (List.replicate 192 0) = err e ∨
          (∃ r, runInner unitBn (List.replicate 192 0) = ok r) ∧
            runInner unitBn (List.replicate 192 0) = err e) ∧
      (runInner unitBn (List.replicate 192 0) = ok (.Returned, toBigEndian 1, 0) →
        runInner unitBn (List.replicate 192 0 ++ List.replicate 192 0) =
          runInner unitBn (List.replicate 192 0)) ∧
      (runInner unitBn (List.replicate 192 0) = ok (.Returned, toBigEndian 1, 0) →
        runInner unitBn (List.replicate 192 0 ++ List.replicate 192 0) =
          runInner unitBn (List.replicate 192 0))) :=
  have hz : (List.replicate 192 0 : Bytes).length % 192 = 0 := by
    simp only [List.length_replicate, Nat.mod_self]
  ⟨hz, hz, runInner_append unitBn (List.replicate 192 0) (List.replicate 192 0) hz hz⟩

/-- The element of 192 zero bytes decodes to the point at infinity and the
identity of G2; with `pairing(O, O) = 1` it checks to `1`, and on either side of
any input it leaves the answer unchanged. -/
theorem runInner_zero_element (hO : bn.pairing .zero bn.g2Zero = 1) (x : Bytes) :
    decodeElement bn (List.replicate 192 0) 0 = ok (.zero, bn.g2Zero) ∧
    runInner bn (List.replicate 192 0) = ok (.Returned, toBigEndian 1, 0) ∧
    runInner bn (List.replicate 192 0 ++ x) = runInner bn x ∧
    runInner bn (x ++ List.replicate 192 0) = runInner bn x := by
  have hlen : (List.replicate 192 0 : Bytes).length % 192 = 0 := by
    simp only [List.length_replicate, Nat.mod_self]
  have hz : runInner bn (List.replicate 192 0) = ok (.Returned, toBigEndian 1, 0) := by
    rw [runInner_of_framed bn hlen, List.length_replicate, Nat.div_self (by decide), pairLoop,
      decodeElement_zero, ok_bind, pairLoop]
    simp [pairingCheck, hO]
  exact ⟨decodeElement_zero bn, hz, runInner_append_of_check_one_left bn x hlen hz,
    runInner_append_of_check_one_right bn x hlen hz⟩

set_option maxRecDepth 2000 in
/-- The zero element around the element of the generator `(1, 2)`, with `flatBn`,
whose pairing is `2` at the generator: that element checks to `0`, and keeps that
answer with the zero element on either side. -/
theorem runInner_zero_element_generator :
    flatBn.pairing .zero flatBn.g2Zero = 1 ∧
    runInner flatBn (toBigEndian 1 ++ toBigEndian 2 ++ List.replicate 128 0 : Bytes) = ok (.Returned, toBigEndian 0, 0) ∧
    (decodeElement flatBn (List.replicate 192 0) 0 = ok (.zero, flatBn.g2Zero) ∧
      runInner flatBn (List.replicate 192 0) = ok (.Returned, toBigEndian 1, 0) ∧
      runInner flatBn (List.replicate 192 0 ++ (toBigEndian 1 ++ toBigEndian 2 ++ List.replicate 128 0 : Bytes)) =
        runInner flatBn (toBigEndian 1 ++ toBigEndian 2 ++ List.replicate 128 0 : Bytes) ∧
      runInner flatBn ((toBigEndian 1 ++ toBigEndian 2 ++ List.replicate 128 0 : Bytes) ++ List.replicate 192 0) =
        runInner flatBn (toBigEndian 1 ++ toBigEndian 2 ++ List.replicate 128 0 : Bytes)) :=
  ⟨rfl, by decide, runInner_zero_element flatBn rfl _⟩

end Concat

end BN128Pair

end AuroraBn128
