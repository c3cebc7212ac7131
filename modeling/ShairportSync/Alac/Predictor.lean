import ShairportSync.Alac.Rice

/-!
# The adaptive predictor of ALAC

The samples of a channel are predicted from the ones before, and the stream has the differences.
The decoder predicts from what it has written and adapts the coefficients to the sign of every
difference.

`predictorErrors` are the differences of a channel under the same adaptation. They give back the
channel: the prediction of a sample sees the samples before it only, and a difference is known when
the lower bits of it are.
-/

namespace ShairportSync

open Numeric

namespace Alac

def signExtended32 (val : ℤ) (bits : ℕ) : ℤ := int32 (val * 2 ^ (32 - bits)) / 2 ^ (32 - bits)

/-- What an `int16_t` is after a computation -/
abbrev int16 (v : ℤ) : ℤ := signed 16 v

/-! ## The decoder -/

def addDifferences (errors : ℕ → ℤ) (readSampleSize : ℕ) : ℕ → ℕ → (ℕ → ℤ) → ℕ → ℤ
  | _, 0, bufferOut => bufferOut
  | i, rounds + 1, bufferOut =>
    addDifferences errors readSampleSize (i + 1) rounds
      (Function.update bufferOut (i + 1)
        (signExtended32 (int32 (bufferOut i + errors (i + 1))) readSampleSize))

section Fir

variable (bufferOut : ℕ → ℤ) (base predictorCoefNum predictorQuantitization : ℕ)

def firSum (predictorCoefTable : ℕ → ℤ) : ℕ → ℤ
  | 0 => 0
  | j + 1 =>
    int32 (firSum predictorCoefTable j +
      int32 (int32 (bufferOut (base + (predictorCoefNum - j)) - bufferOut base) *
        predictorCoefTable j))

/-- The prediction, before the error is added. The sum is rounded with half of a step, which is
`1 << (predictor_quantitization - 1)`; a step of one has no half. -/
def firPrediction (predictorCoefTable : ℕ → ℤ) : ℤ :=
  let outval := int32 (2 ^ predictorQuantitization / 2 +
    firSum bufferOut base predictorCoefNum predictorCoefTable predictorCoefNum)
  int32 (outval / 2 ^ predictorQuantitization + bufferOut base)

/-- The adaptation from the last coefficient down, while the error keeps the sign of `direction` -/
def adaptCoefs (direction : ℤ) : ℕ → ℤ → (ℕ → ℤ) → ℕ → ℤ
  | 0, _, predictorCoefTable => predictorCoefTable
  | predictorNum + 1, errorVal, predictorCoefTable =>
    if 0 < direction * errorVal then
      let val := int32 (bufferOut base - bufferOut (base + (predictorCoefNum - predictorNum)))
      let sign := direction * val.sign
      adaptCoefs direction predictorNum
        (int32 (errorVal - int32 (int32 (val * sign) / 2 ^ predictorQuantitization *
          (predictorCoefNum - predictorNum : ℕ))))
        (Function.update predictorCoefTable predictorNum
          (int16 (predictorCoefTable predictorNum - sign)))
    else predictorCoefTable

def adaptedCoefs (errorVal : ℤ) (predictorCoefTable : ℕ → ℤ) : ℕ → ℤ :=
  if errorVal > 0 then
    adaptCoefs bufferOut base predictorCoefNum predictorQuantitization 1 predictorCoefNum errorVal
      predictorCoefTable
  else if errorVal < 0 then
    adaptCoefs bufferOut base predictorCoefNum predictorQuantitization (-1) predictorCoefNum
      errorVal predictorCoefTable
  else predictorCoefTable

end Fir

def firLoop (errors : ℕ → ℤ) (readSampleSize predictorCoefNum predictorQuantitization : ℕ) :
    ℕ → ℕ → (ℕ → ℤ) → (ℕ → ℤ) → ℕ → ℤ
  | _, 0, bufferOut, _ => bufferOut
  | base, rounds + 1, bufferOut, predictorCoefTable =>
    let errorVal := errors (base + predictorCoefNum + 1)
    let outval := signExtended32
      (int32 (firPrediction bufferOut base predictorCoefNum predictorQuantitization
        predictorCoefTable + errorVal)) readSampleSize
    let bufferOut := Function.update bufferOut (base + predictorCoefNum + 1) outval
    firLoop errors readSampleSize predictorCoefNum predictorQuantitization (base + 1) rounds
      bufferOut (adaptedCoefs bufferOut base predictorCoefNum predictorQuantitization errorVal
        predictorCoefTable)

def predictorDecompressFirAdapt (errorBuffer bufferOut : ℕ → ℤ) (outputSize readSampleSize : ℕ)
    (predictorCoefTable : ℕ → ℤ) (predictorCoefNum predictorQuantitization : ℕ) : ℕ → ℤ :=
  let bufferOut := Function.update bufferOut 0 (errorBuffer 0)
  if predictorCoefNum = 0 then
    fun i => if 1 ≤ i ∧ i < outputSize then errorBuffer i else bufferOut i
  else if predictorCoefNum = 0x1f then
    addDifferences errorBuffer readSampleSize 0 (outputSize - 1) bufferOut
  else
    firLoop errorBuffer readSampleSize predictorCoefNum predictorQuantitization 0
      (outputSize - (predictorCoefNum + 1))
      (addDifferences errorBuffer readSampleSize 0 predictorCoefNum bufferOut) predictorCoefTable

/-- The samples of the buffers that the predictor touches: the first one always, and those of the
warm-up even if the frame is shorter -/
def firReach (outputSize predictorCoefNum : ℕ) : ℕ :=
  max outputSize (if predictorCoefNum = 0x1f then 1 else predictorCoefNum + 1)

/-- `1 << (predictor_quantitization - 1)` is a number where it is needed. -/
def FirShifts (outputSize predictorCoefNum predictorQuantitization : ℕ) : Prop :=
  predictorCoefNum = 0 ∨ predictorCoefNum = 0x1f ∨ outputSize ≤ predictorCoefNum + 1 ∨
    0 < predictorQuantitization

instance (outputSize predictorCoefNum predictorQuantitization : ℕ) :
    Decidable (FirShifts outputSize predictorCoefNum predictorQuantitization) :=
  inferInstanceAs (Decidable (_ ∨ _ ∨ _ ∨ _))

/-! ## What the decoder leaves as it is -/

theorem addDifferences_of_lt {errors : ℕ → ℤ} {bits i rounds : ℕ} {buffer : ℕ → ℤ} {j : ℕ}
    (hj : i + rounds < j) : addDifferences errors bits i rounds buffer j = buffer j := by
  induction rounds generalizing i buffer with
  | zero => rfl
  | succ rounds ih => rw [addDifferences, ih (by omega), Function.update_of_ne (by omega)]

theorem firLoop_of_lt {errors : ℕ → ℤ} {bits n quantitization base rounds : ℕ}
    {buffer coefs : ℕ → ℤ} {j : ℕ} (hj : base + rounds + n < j) :
    firLoop errors bits n quantitization base rounds buffer coefs j = buffer j := by
  induction rounds generalizing base buffer coefs with
  | zero => rfl
  | succ rounds ih => rw [firLoop, ih (by omega), Function.update_of_ne (by omega)]

theorem predictorDecompressFirAdapt_of_le {errors buffer coefs : ℕ → ℤ}
    {size bits n quantitization i : ℕ} (hi : firReach size n ≤ i) :
    predictorDecompressFirAdapt errors buffer size bits coefs n quantitization i = buffer i := by
  rw [firReach, max_le_iff] at hi
  obtain ⟨hsize, hfirst⟩ := hi
  rw [predictorDecompressFirAdapt]
  by_cases hzero : n = 0
  · subst hzero
    rw [if_neg (by decide)] at hfirst
    rw [if_pos rfl, if_neg (by omega), Function.update_of_ne (by omega)]
  · rw [if_neg hzero]
    by_cases hmax : n = 0x1f
    · rw [if_pos hmax] at hfirst ⊢
      rw [addDifferences_of_lt (by omega), Function.update_of_ne (by omega)]
    · rw [if_neg hmax] at hfirst ⊢
      have hwarm : addDifferences errors bits 0 n (Function.update buffer 0 (errors 0)) i =
          buffer i := by
        rw [addDifferences_of_lt (by omega), Function.update_of_ne (by omega)]
      rw [← hwarm]
      by_cases hshort : size ≤ n + 1
      · rw [Nat.sub_eq_zero_of_le hshort, firLoop]
      · exact firLoop_of_lt (by omega)

/-! ## The differences of a channel -/

section Errors

variable (samples : ℕ → ℤ) (readSampleSize predictorCoefNum predictorQuantitization : ℕ)

def firError (base : ℕ) (predictorCoefTable : ℕ → ℤ) : ℤ :=
  signed readSampleSize (samples (base + predictorCoefNum + 1) -
    firPrediction samples base predictorCoefNum predictorQuantitization predictorCoefTable)

/-- The coefficients that the samples before have left -/
def coefsAt (predictorCoefTable : ℕ → ℤ) : ℕ → ℕ → ℤ
  | 0 => predictorCoefTable
  | base + 1 =>
    adaptedCoefs samples base predictorCoefNum predictorQuantitization
      (firError samples readSampleSize predictorCoefNum predictorQuantitization base
        (coefsAt predictorCoefTable base)) (coefsAt predictorCoefTable base)

def predictorErrors (predictorCoefTable : ℕ → ℤ) : ℕ → ℤ
  | 0 => samples 0
  | i + 1 =>
    if predictorCoefNum = 0 then samples (i + 1)
    else if predictorCoefNum = 0x1f ∨ i < predictorCoefNum then
      signed readSampleSize (samples (i + 1) - samples i)
    else
      firError samples readSampleSize predictorCoefNum predictorQuantitization
        (i - predictorCoefNum)
        (coefsAt samples readSampleSize predictorCoefNum predictorQuantitization
          predictorCoefTable (i - predictorCoefNum))

end Errors

/-! ## What a prediction sees -/

theorem firSum_congr {buffer samples : ℕ → ℤ} {base n : ℕ} (coefs : ℕ → ℤ)
    (h : ∀ j ≤ n, buffer (base + j) = samples (base + j)) (m : ℕ) :
    firSum buffer base n coefs m = firSum samples base n coefs m := by
  induction m with
  | zero => rfl
  | succ m ih =>
      have hbase := h 0 (Nat.zero_le n)
      rw [Nat.add_zero] at hbase
      rw [firSum, firSum, ih, h (n - m) (Nat.sub_le n m), hbase]

theorem firPrediction_congr {buffer samples : ℕ → ℤ} {base n : ℕ} (quantitization : ℕ)
    (coefs : ℕ → ℤ) (h : ∀ j ≤ n, buffer (base + j) = samples (base + j)) :
    firPrediction buffer base n quantitization coefs =
      firPrediction samples base n quantitization coefs := by
  have hbase := h 0 (Nat.zero_le n)
  rw [Nat.add_zero] at hbase
  rw [firPrediction, firPrediction, firSum_congr coefs h, hbase]

theorem adaptCoefs_congr {buffer samples : ℕ → ℤ} {base n : ℕ} (quantitization : ℕ)
    (direction : ℤ) (h : ∀ j ≤ n, buffer (base + j) = samples (base + j)) (m : ℕ)
    (errorVal : ℤ) (coefs : ℕ → ℤ) :
    adaptCoefs buffer base n quantitization direction m errorVal coefs =
      adaptCoefs samples base n quantitization direction m errorVal coefs := by
  induction m generalizing errorVal coefs with
  | zero => rfl
  | succ m ih =>
      have hbase := h 0 (Nat.zero_le n)
      rw [Nat.add_zero] at hbase
      simp only [adaptCoefs, h (n - m) (Nat.sub_le n m), hbase, ih]

theorem adaptedCoefs_congr {buffer samples : ℕ → ℤ} {base n : ℕ} (quantitization : ℕ)
    (h : ∀ j ≤ n, buffer (base + j) = samples (base + j)) (errorVal : ℤ) (coefs : ℕ → ℤ) :
    adaptedCoefs buffer base n quantitization errorVal coefs =
      adaptedCoefs samples base n quantitization errorVal coefs := by
  simp only [adaptedCoefs, adaptCoefs_congr quantitization _ h]

/-! ## The round trip -/

theorem signExtended32_eq {bits : ℕ} (hpos : 0 < bits) (hle : bits ≤ 32) (v : ℤ) :
    signExtended32 (int32 v) bits = signed bits v := by
  rw [signExtended32, int32, int32, signed_shift hpos hle, signed_signed hle]

theorem signed_add_difference {bits : ℕ} (hpos : 0 < bits) {prediction sample : ℤ}
    (hsample : SignedRange (bits - 1) sample) :
    signed bits (prediction + signed bits (sample - prediction)) = sample := by
  obtain ⟨w, rfl⟩ := Nat.exists_eq_succ_of_ne_zero hpos.ne'
  rw [signed_add_signed le_rfl, add_sub_cancel]
  exact signed_of_range hsample

def Agree (buffer samples : ℕ → ℤ) (n size : ℕ) : Prop :=
  ∀ i < n, i < size → buffer i = samples i

theorem Agree.update {buffer samples : ℕ → ℤ} {n size : ℕ} (h : Agree buffer samples n size)
    {x : ℤ} (hx : n < size → x = samples n) :
    Agree (Function.update buffer n x) samples (n + 1) size := by
  intro i hi hsize
  by_cases hn : i = n
  · subst hn
    rw [Function.update_self, hx hsize]
  · rw [Function.update_of_ne hn, h i (by omega) hsize]

variable {errors samples : ℕ → ℤ} {size bits : ℕ}

theorem addDifferences_agree (hpos : 0 < bits) (hle : bits ≤ 32)
    (hrange : ∀ i < size, SignedRange (bits - 1) (samples i)) {i : ℕ} (rounds : ℕ)
    {buffer : ℕ → ℤ}
    (herrors : ∀ j, i ≤ j → j < i + rounds → j + 1 < size →
      errors (j + 1) = signed bits (samples (j + 1) - samples j))
    (h : Agree buffer samples (i + 1) size) :
    Agree (addDifferences errors bits i rounds buffer) samples (i + rounds + 1) size := by
  induction rounds generalizing i buffer with
  | zero => exact h
  | succ rounds ih =>
      have hsum : i + (rounds + 1) = i + 1 + rounds := by omega
      rw [addDifferences, hsum]
      refine ih (fun j hj hlt => herrors j (by omega) (by omega)) (h.update fun hsize => ?_)
      rw [signExtended32_eq hpos hle, herrors i le_rfl (by omega) hsize,
        h i (by omega) (by omega)]
      exact signed_add_difference hpos (hrange _ hsize)

/-- The loop keeps the samples of the channel in the buffer, and its coefficients. -/
theorem firLoop_agree (hpos : 0 < bits) (hle : bits ≤ 32)
    (hrange : ∀ i < size, SignedRange (bits - 1) (samples i)) {n quantitization : ℕ}
    {coefs : ℕ → ℤ} {base : ℕ} (rounds : ℕ) {buffer : ℕ → ℤ} (hsize : base + rounds + n + 1 ≤ size)
    (herrors : ∀ b, b + n + 1 < size → errors (b + n + 1) =
      firError samples bits n quantitization b (coefsAt samples bits n quantitization coefs b))
    (h : Agree buffer samples (base + n + 1) size) :
    Agree (firLoop errors bits n quantitization base rounds buffer
      (coefsAt samples bits n quantitization coefs base)) samples (base + rounds + n + 1) size := by
  induction rounds generalizing base buffer with
  | zero => exact h
  | succ rounds ih =>
      have hseen : ∀ j ≤ n, buffer (base + j) = samples (base + j) :=
        fun j hj => h (base + j) (by omega) (by omega)
      have hsum : base + (rounds + 1) + n + 1 = base + 1 + rounds + n + 1 := by omega
      have hnext : base + 1 + n + 1 = base + n + 1 + 1 := by omega
      have herror := herrors base (by omega)
      have houtval : signExtended32 (int32 (firPrediction buffer base n quantitization
          (coefsAt samples bits n quantitization coefs base) + errors (base + n + 1))) bits =
          samples (base + n + 1) := by
        rw [signExtended32_eq hpos hle, firPrediction_congr _ _ hseen, herror, firError]
        exact signed_add_difference hpos (hrange _ (by omega))
      have hcoefs : adaptedCoefs (Function.update buffer (base + n + 1) (samples (base + n + 1)))
          base n quantitization (errors (base + n + 1))
          (coefsAt samples bits n quantitization coefs base) =
          coefsAt samples bits n quantitization coefs (base + 1) := by
        have hseen' : ∀ j ≤ n,
            Function.update buffer (base + n + 1) (samples (base + n + 1)) (base + j) =
              samples (base + j) := by
          intro j hj
          rw [Function.update_of_ne (by omega), hseen j hj]
        rw [adaptedCoefs_congr _ hseen', herror, coefsAt]
      rw [firLoop]
      simp only [houtval, hcoefs]
      rw [hsum]
      refine ih (by omega) ?_
      rw [hnext]
      exact h.update fun _ => rfl

/-- The differences of a channel give it back, whatever the coefficients. -/
theorem predictorDecompressFirAdapt_predictorErrors (hpos : 0 < bits) (hle : bits ≤ 32)
    (hrange : ∀ i < size, SignedRange (bits - 1) (samples i)) (buffer coefs : ℕ → ℤ)
    (n quantitization : ℕ)
    (herrors : ∀ i < size, errors i = predictorErrors samples bits n quantitization coefs i) :
    ∀ i < size,
      predictorDecompressFirAdapt errors buffer size bits coefs n quantitization i = samples i := by
  have hfirst : Agree (Function.update buffer 0 (errors 0)) samples 1 size :=
    Agree.update (fun i hi => absurd hi (Nat.not_lt_zero i)) fun hsize => herrors 0 hsize
  intro i hi
  rw [predictorDecompressFirAdapt]
  by_cases hzero : n = 0
  · rw [if_pos hzero]
    cases i with
    | zero => rw [if_neg (by omega), Function.update_self, herrors 0 hi, predictorErrors]
    | succ i => rw [if_pos ⟨by omega, hi⟩, herrors _ hi, predictorErrors, if_pos hzero]
  · rw [if_neg hzero]
    by_cases hmax : n = 0x1f
    · rw [if_pos hmax]
      have hdifference : ∀ j, 0 ≤ j → j < 0 + (size - 1) → j + 1 < size →
          errors (j + 1) = signed bits (samples (j + 1) - samples j) := by
        intro j _ _ hj
        rw [herrors _ hj, predictorErrors, if_neg hzero, if_pos (Or.inl hmax)]
      exact addDifferences_agree hpos hle hrange (size - 1) hdifference hfirst i (by omega) hi
    · rw [if_neg hmax]
      have hdifference : ∀ j, 0 ≤ j → j < 0 + n → j + 1 < size →
          errors (j + 1) = signed bits (samples (j + 1) - samples j) := by
        intro j _ hn hj
        rw [herrors _ hj, predictorErrors, if_neg hzero, if_pos (Or.inr (by omega))]
      have hwarm := addDifferences_agree hpos hle hrange n hdifference hfirst
      rw [Nat.zero_add] at hwarm
      by_cases hshort : size ≤ n + 1
      · rw [Nat.sub_eq_zero_of_le hshort]
        exact hwarm i (by omega) hi
      · have hgeneral : ∀ b, b + n + 1 < size → errors (b + n + 1) =
            firError samples bits n quantitization b
              (coefsAt samples bits n quantitization coefs b) := by
          intro b hb
          rw [herrors _ hb, predictorErrors, if_neg hzero, if_neg (by omega), Nat.add_sub_cancel]
        have hloop : Agree (firLoop errors bits n quantitization 0 (size - (n + 1))
            (addDifferences errors bits 0 n (Function.update buffer 0 (errors 0)))
            (coefsAt samples bits n quantitization coefs 0)) samples
            (0 + (size - (n + 1)) + n + 1) size :=
          firLoop_agree hpos hle hrange _ (by omega) hgeneral (by rwa [Nat.zero_add])
        exact hloop i (by omega) hi

theorem predictorErrors_range (hpos : 0 < bits)
    (hrange : ∀ i < size, SignedRange (bits - 1) (samples i)) (coefs : ℕ → ℤ)
    (n quantitization : ℕ) :
    ∀ i < size,
      SignedRange (bits - 1) (predictorErrors samples bits n quantitization coefs i) := by
  obtain ⟨w, rfl⟩ := Nat.exists_eq_succ_of_ne_zero hpos.ne'
  intro i hi
  cases i with
  | zero => exact hrange 0 hi
  | succ i =>
      rw [predictorErrors]
      split_ifs
      · exact hrange (i + 1) hi
      · exact signed_range w _
      · exact signed_range w _

end Alac

end ShairportSync
