import AuroraBn128.Curve

/-!
# aurora-engine bn128: constants, `read_point` and the G1 output writer

The `costs` and `consts` modules of `bn128.rs`, the point decoder `read_point`
shared by ECADD and ECMUL, and the 64-byte writer both of them end with.

**Model.**
* `readWord interpret input a b msg` is the read of one 32-byte word written out
  at every coordinate and scalar of the file: `buf.copy_from_slice(&input[a..b])`
  into `[0u8; 32]`, then the interpreter, its error mapped to `msg`.
* `pointOfCoords` is the point built from two coordinates, `(0, 0)` standing for
  the point at infinity; `read_point` and the pairing loop both write it out.
* `writeOutput` is the writer of `BN128Add::run_inner` and `BN128Mul::run_inner`.

**Results.**
* `readPoint_eq`: inside the buffer `read_point` never panics and reads the two
  words at `pos` and `pos + 32`; `toOption_readPoint`: it accepts exactly the
  point `pointAt` describes.
* `writeOutput_eq`, `readPoint_encodeG1`, `encodeG1_readPoint`: the writer never
  panics, and it and `read_point` are mutually inverse over all points and all
  64-byte strings.
-/

namespace AuroraBn128

open RustResult

namespace Costs

/-- Cost of the Byzantium alt_bn128_add operation. -/
def byzantiumAdd : UInt64 := 500

/-- Cost of the Byzantium alt_bn128_mul operation. -/
def byzantiumMul : UInt64 := 40000

/-- Cost of the alt_bn128_pair per point. -/
def byzantiumPairPerPoint : UInt64 := 80000

/-- Cost of the alt_bn128_pair operation. -/
def byzantiumPairBase : UInt64 := 100000

/-- Cost of the Istanbul alt_bn128_add operation. -/
def istanbulAdd : UInt64 := 150

/-- Cost of the Istanbul alt_bn128_mul operation. -/
def istanbulMul : UInt64 := 6000

/-- Cost of the Istanbul alt_bn128_pair per point. -/
def istanbulPairPerPoint : UInt64 := 34000

/-- Cost of the Istanbul alt_bn128_pair operation. -/
def istanbulPairBase : UInt64 := 45000

end Costs

namespace Consts

/-- Input length for the add operation. -/
def addInputLen : Nat := 128

/-- Input length for the multiplication operation. -/
def mulInputLen : Nat := 128

/-- Pair element length. -/
def pairElementLen : Nat := 192

end Consts

/-- The 32 bytes of `input` from offset `a`. -/
def wordAt (input : Bytes) (a : Nat) : Bytes := (input.drop a).take 32

/-- One 32-byte word: `let mut buf = [0u8; 32]; buf.copy_from_slice(&input[a..b]);`
then `interpret(&buf).map_err(|_e| ExitError::Other(msg))?`. -/
def readWord {ε α : Type} (interpret : Bytes → Except ε α) (input : Bytes) (a b : Nat)
    (msg : String) : RustResult α := do
  let buf ← copyFromSlice (List.replicate 32 0) (← sliceRange input a b)
  mapErr (interpret buf) (.Other msg)

/-- The point with coordinates `(px, py)`: the point at infinity for `(0, 0)`,
otherwise `AffineG1::new(px, py)` with its error mapped to `msg`. -/
def pointOfCoords (px py : Fq) (msg : String) : RustResult G1 :=
  if px = 0 ∧ py = 0 then
    pure .zero
  else do
    let a ← mapErr (AffineG1.new px py) (.Other msg)
    pure (.affine a)

/-- `read_point(input, pos)`: reads the `x` and `y` points from an input at a
given position. -/
def readPoint (input : Bytes) (pos : Nat) : RustResult G1 := do
  let px ← readWord Fq.interpret input pos (pos + 32) "invalid `x` point"
  let py ← readWord Fq.interpret input (pos + 32) (pos + 64) "invalid `y` point"
  pointOfCoords px py "invalid curve point"

/-- The writer ending `BN128Add::run_inner` and `BN128Mul::run_inner`: a buffer
`[0u8; 64]`, into which the affine coordinates of the point, when it has them, are
written big-endian. -/
def writeOutput (p : G1) : RustResult Bytes :=
  let output := List.replicate 64 0
  match AffineG1.fromJacobian p with
  | some a => do
      let output ← copyIntoRange output 0 32 (toBigEndian (Fq.intoU256 a.x))
      copyIntoRange output 32 64 (toBigEndian (Fq.intoU256 a.y))
  | none => pure output

/-- The 64 bytes written for a point: zeros at infinity, else `x` then `y`. -/
def encodeG1 : G1 → Bytes
  | .zero => List.replicate 64 0
  | .affine a => toBigEndian (Fq.intoU256 a.x) ++ toBigEndian (Fq.intoU256 a.y)

@[simp] theorem length_wordAt {input : Bytes} {a : Nat} (h : a + 32 ≤ input.length) :
    (wordAt input a).length = 32 := by
  simp [wordAt]
  omega

theorem wordAt_append_left {l r : Bytes} {a : Nat} (h : a + 32 ≤ l.length) :
    wordAt (l ++ r) a = wordAt l a := by
  simp only [wordAt, List.drop_append_of_le_length (by omega : a ≤ l.length)]
  exact List.take_append_of_le_length (by simp; omega)

theorem wordAt_append_right {l r : Bytes} {a : Nat} (h : l.length ≤ a) :
    wordAt (l ++ r) a = wordAt r (a - l.length) := by
  simp [wordAt, List.drop_append_eq_append_drop, List.drop_eq_nil_of_le h]

/-- Cutting the buffer after a word does not change the word. -/
theorem wordAt_take {xs : Bytes} {a n : Nat} (h : a + 32 ≤ n) :
    wordAt (xs.take n) a = wordAt xs a := by
  simp only [wordAt, List.drop_take, List.take_take]
  congr 1
  omega

/-- A word inside the buffer never panics: it is the interpreter on `wordAt`. -/
theorem readWord_of_eq {ε α : Type} (interpret : Bytes → Except ε α) {input : Bytes} {a b : Nat}
    (msg : String) (hb : b = a + 32) (h : b ≤ input.length) :
    readWord interpret input a b msg = mapErr (interpret (wordAt input a)) (.Other msg) := by
  subst hb
  have hw := length_wordAt h
  simp only [wordAt] at hw
  simp [readWord, sliceRange_of_le (Nat.le_add_right a 32) h, hw, wordAt]

/-- A word read fails only with its own message. -/
theorem errorsIn_readWord {ε α : Type} {P : ExitError → Prop} (interpret : Bytes → Except ε α)
    (input : Bytes) (a b : Nat) {msg : String} (h : P (.Other msg)) :
    ErrorsIn P (readWord interpret input a b msg) :=
  (errorsIn_sliceRange P input a b).bind fun _ =>
    (errorsIn_copyFromSlice P _ _).bind fun _ => errorsIn_mapErr _ h

theorem errorsIn_pointOfCoords {P : ExitError → Prop} (px py : Fq) {msg : String}
    (h : P (.Other msg)) : ErrorsIn P (pointOfCoords px py msg) := by
  unfold pointOfCoords
  split
  · exact errorsIn_ok _
  · exact (errorsIn_mapErr _ h).bind fun _ => errorsIn_ok _

theorem readWord_of_le {ε α : Type} (interpret : Bytes → Except ε α) {input : Bytes} {a : Nat}
    (msg : String) (h : a + 32 ≤ input.length) :
    readWord interpret input a (a + 32) msg = mapErr (interpret (wordAt input a)) (.Other msg) :=
  readWord_of_eq interpret msg rfl h

/-- The point built from two coordinates; its `Ok` value does not depend on the
message. -/
def pointOfCoords? (px py : Fq) : Option G1 :=
  if px = 0 ∧ py = 0 then some .zero
  else match AffineG1.new px py with
    | .ok a => some (.affine a)
    | .error _ => none

theorem pointOfCoords_ne_panic (px py : Fq) (msg : String) : pointOfCoords px py msg ≠ panic := by
  unfold pointOfCoords
  split
  · simp
  · cases AffineG1.new px py <;> simp

@[simp] theorem toOption_pointOfCoords (px py : Fq) (msg : String) :
    (pointOfCoords px py msg).toOption = pointOfCoords? px py := by
  unfold pointOfCoords pointOfCoords?
  split
  · rfl
  · cases AffineG1.new px py <;> rfl

/-- `read_point` inside the buffer: the interpreted words at `pos` and `pos + 32`,
then the point they are the coordinates of. -/
theorem readPoint_eq {input : Bytes} {pos : Nat} (h : pos + 64 ≤ input.length) :
    readPoint input pos = (do
      let px ← mapErr (Fq.interpret (wordAt input pos)) (.Other "invalid `x` point")
      let py ← mapErr (Fq.interpret (wordAt input (pos + 32))) (.Other "invalid `y` point")
      pointOfCoords px py "invalid curve point") := by
  rw [readPoint, readWord_of_le _ _ (by omega), show pos + 64 = pos + 32 + 32 by omega,
    readWord_of_le _ _ (by omega)]

/-- The point at `pos` as its description reads it: the two big-endian words from
`pos` below `p`, then the point at infinity for `(0, 0)` or a point of the curve. -/
def pointAt (input : Bytes) (pos : Nat) : Option G1 :=
  if decodeBE (wordAt input pos) < fqModulus ∧ decodeBE (wordAt input (pos + 32)) < fqModulus then
    pointOfCoords? (decodeBE (wordAt input pos)) (decodeBE (wordAt input (pos + 32)))
  else none

/-- Inside the buffer, `read_point` returns `Ok` exactly with `pointAt`. -/
theorem toOption_readPoint {input : Bytes} {pos : Nat} (h : pos + 64 ≤ input.length) :
    (readPoint input pos).toOption = pointAt input pos := by
  rw [readPoint_eq h, pointAt]
  simp only [toOption_bind, toOption_mapErr, Fq.toOption_interpret, toOption_pointOfCoords]
  by_cases hx : decodeBE (wordAt input pos) < fqModulus <;>
    by_cases hy : decodeBE (wordAt input (pos + 32)) < fqModulus <;> simp [hx, hy]

/-- `read_point` reads only the 64 bytes from `pos`. -/
theorem readPoint_append_left {l r : Bytes} {pos : Nat} (h : pos + 64 ≤ l.length) :
    readPoint (l ++ r) pos = readPoint l pos := by
  rw [readPoint_eq (by simp; omega), readPoint_eq h, wordAt_append_left (by omega),
    wordAt_append_left (by omega)]

theorem sliceRange_append_shift (l r : Bytes) (a b : Nat) :
    sliceRange (l ++ r) (l.length + a) (l.length + b) = sliceRange r a b := by
  simp only [sliceRange, List.length_append, List.drop_append, Nat.add_sub_add_left,
    Nat.add_le_add_iff_left]

theorem sliceRange_append_left {l : Bytes} (r : Bytes) {a b : Nat} (h : b ≤ l.length) :
    sliceRange (l ++ r) a b = sliceRange l a b := by
  by_cases hab : a ≤ b
  · rw [sliceRange_of_le hab (by simp; omega), sliceRange_of_le hab h,
      List.drop_append_of_le_length (by omega), List.take_append_of_le_length (by simp; omega)]
  · simp [sliceRange, hab]

/-- A word inside the prefix `l` is read from `l`. -/
theorem readWord_append_left {ε α : Type} (interpret : Bytes → Except ε α) {l : Bytes} (r : Bytes)
    {a b : Nat} (msg : String) (h : b ≤ l.length) :
    readWord interpret (l ++ r) a b msg = readWord interpret l a b msg := by
  simp only [readWord, sliceRange_append_left r h]

/-- Behind a prefix `l`, a word at `l.length + a` is the word at `a` of the rest. -/
theorem readWord_append_shift {ε α : Type} (interpret : Bytes → Except ε α) (l r : Bytes)
    (a b : Nat) (msg : String) :
    readWord interpret (l ++ r) (l.length + a) (l.length + b) msg =
      readWord interpret r a b msg := by
  simp only [readWord, sliceRange_append_shift]

/-- Behind a prefix `l`, `read_point` at `l.length + pos` is `read_point` of the rest. -/
theorem readPoint_append_shift (l r : Bytes) (pos : Nat) :
    readPoint (l ++ r) (l.length + pos) = readPoint r pos := by
  simp only [readPoint, readWord, Nat.add_assoc, sliceRange_append_shift]

/-- Swapping two 64-byte halves swaps the points `read_point` reads at `0` and
at `64`. -/
theorem readPoint_swap_halves {t d : Bytes} (ht : t.length = 64) (hd : d.length = 64) :
    readPoint (d ++ t) 0 = readPoint (t ++ d) 64 ∧
      readPoint (d ++ t) 64 = readPoint (t ++ d) 0 := by
  have e1 := readPoint_append_shift t d 0
  have e2 := readPoint_append_shift d t 0
  rw [ht, Nat.add_zero] at e1
  rw [hd, Nat.add_zero] at e2
  exact ⟨(readPoint_append_left (by omega)).trans e1.symm,
    e2.trans (readPoint_append_left (by omega)).symm⟩

/-- The messages of `read_point`. -/
def readPointErrors : List ExitError :=
  [.Other "invalid `x` point", .Other "invalid `y` point", .Other "invalid curve point"]

theorem errorsIn_readPoint (input : Bytes) (pos : Nat) :
    ErrorsIn (· ∈ readPointErrors) (readPoint input pos) :=
  (errorsIn_readWord _ _ _ _ (by decide)).bind fun _ =>
    (errorsIn_readWord _ _ _ _ (by decide)).bind fun _ => errorsIn_pointOfCoords _ _ (by decide)

theorem readPoint_ne_panic {input : Bytes} {pos : Nat} (h : pos + 64 ≤ input.length) :
    readPoint input pos ≠ panic := by
  rw [readPoint_eq h]
  refine bind_ne_panic (mapErr_ne_panic _ _) fun _ _ => ?_
  exact bind_ne_panic (mapErr_ne_panic _ _) fun _ _ => pointOfCoords_ne_panic _ _ _

/-- The writer always succeeds, with the 64 bytes of `encodeG1`. -/
theorem writeOutput_eq (p : G1) : writeOutput p = ok (encodeG1 p) := by
  cases p with
  | zero =>
      rfl
  | affine a =>
      simp only [writeOutput, AffineG1.fromJacobian]
      rw [copyIntoRange_of_le (by decide) (by simp) (by simp)]
      simp only [List.take_zero, List.nil_append, ok_bind]
      rw [copyIntoRange_of_le (by decide) (by simp) (by simp)]
      simp [encodeG1, List.take_left' (length_toBigEndian _)]

@[simp] theorem length_encodeG1 (p : G1) : (encodeG1 p).length = 64 := by
  cases p <;> simp [encodeG1]

theorem wordAt_encodeG1_zero (p : G1) :
    wordAt (encodeG1 p) 0 = (match p with
      | .zero => List.replicate 32 0
      | .affine a => toBigEndian (Fq.intoU256 a.x)) := by
  cases p with
  | zero =>
      rfl
  | affine a =>
      simp [wordAt, encodeG1, List.take_left' (length_toBigEndian _)]

theorem wordAt_encodeG1_32 (p : G1) :
    wordAt (encodeG1 p) 32 = (match p with
      | .zero => List.replicate 32 0
      | .affine a => toBigEndian (Fq.intoU256 a.y)) := by
  cases p with
  | zero =>
      rfl
  | affine a =>
      simp [wordAt, encodeG1, List.drop_left' (length_toBigEndian _)]

/-- The bytes written for the point built from two coordinates are the two
coordinates written. -/
theorem encodeG1_of_pointOfCoords {px py : Fq} {msg : String} {p : G1}
    (h : pointOfCoords px py msg = ok p) :
    encodeG1 p = toBigEndian (Fq.intoU256 px) ++ toBigEndian (Fq.intoU256 py) := by
  unfold pointOfCoords at h
  split at h
  · next hz =>
      cases h
      simp only [encodeG1, hz.1, hz.2, toBigEndian, Fq.toNat_intoU256, ZMod.val_zero,
        encodeBE_zero, ← List.replicate_add]
  · obtain ⟨a, ha, hp⟩ := bind_eq_ok.mp h
    rw [pure_eq_ok, ok.injEq] at hp
    subst hp
    rw [mapErr_eq_ok] at ha
    unfold AffineG1.new at ha
    split at ha
    · cases ha
      rfl
    · cases ha

/-- Reading the bytes written for a point gives the point back. -/
theorem readPoint_encodeG1 (p : G1) : readPoint (encodeG1 p) 0 = ok p := by
  rw [readPoint_eq (by simp), Nat.zero_add, wordAt_encodeG1_zero, wordAt_encodeG1_32]
  cases p with
  | zero =>
      simp only [Fq.interpret_replicate_zero, mapErr_ok, ok_bind, pointOfCoords, and_self,
        if_true, pure_eq_ok]
  | affine a =>
      have hne : ¬ (a.x = 0 ∧ a.y = 0) := by
        rintro ⟨hx, hy⟩
        have hcurve := a.on_curve
        rw [hx, hy] at hcurve
        exact origin_not_on_curve hcurve
      simp [pointOfCoords, hne, AffineG1.new_of_on_curve a.on_curve]

/-- A 64-byte string accepted by `read_point` is the string written for the
point read. -/
theorem encodeG1_readPoint {s : Bytes} {p : G1} (hs : s.length = 64)
    (h : readPoint s 0 = ok p) : encodeG1 p = s := by
  rw [readPoint_eq (by omega), Nat.zero_add] at h
  obtain ⟨px, hpx, h⟩ := bind_eq_ok.mp h
  obtain ⟨py, hpy, h⟩ := bind_eq_ok.mp h
  have hd : (s.drop 32).take 32 = s.drop 32 := List.take_of_length_le (by simp [hs])
  calc encodeG1 p = toBigEndian (Fq.intoU256 px) ++ toBigEndian (Fq.intoU256 py) :=
        encodeG1_of_pointOfCoords h
    _ = wordAt s 0 ++ wordAt s 32 := by
        rw [Fq.toBigEndian_of_interpret (length_wordAt (by omega)) (mapErr_eq_ok.mp hpx),
          Fq.toBigEndian_of_interpret (length_wordAt (by omega)) (mapErr_eq_ok.mp hpy)]
    _ = s := by simp only [wordAt, List.drop_zero, hd, List.take_append_drop]

end AuroraBn128
