import Mathlib

/-!
# StreetParker.Rounding

Arithmetic that rounds.  A program over a floating-point format is written over
any ordered field, with `fl` around every operation: the result is the exact one,
rounded to a number of the format.  Negation, absolute value and comparison do
not round.

* `LawfulRounding` — what holds of rounding to the nearest in every format: it
  keeps the order, and small integers are numbers of the format;
* `binary p` — rounding to `p` binary digits, ties to even, without bounds on
  the exponent.
-/

/-- The rounding of a format. -/
class Rounding (K : Type*) where
  /-- the number of the format that stands for an exact result -/
  fl : K → K

export Rounding (fl)

/-- What the proofs use of a format. -/
class LawfulRounding (K : Type*) [NatCast K] [LinearOrder K] [Rounding K] : Prop where
  fl_mono : Monotone (fl : K → K)
  fl_fl (x : K) : fl (fl x) = fl x
  fl_natCast (n : ℕ) (hn : n ≤ 2 ^ 24) : fl (n : K) = n

/-- A number of the format. -/
def Representable {K : Type*} [Rounding K] (x : K) : Prop := fl x = x

namespace Rounding

section Lawful

variable {K : Type*} [Semiring K] [LinearOrder K] [Rounding K] [LawfulRounding K] {x y : K}

theorem representable_fl (x : K) : Representable (fl x) := LawfulRounding.fl_fl x

theorem representable_natCast {n : ℕ} (hn : n ≤ 2 ^ 24) : Representable (n : K) :=
  LawfulRounding.fl_natCast n hn

theorem representable_zero : Representable (0 : K) := by
  have h := representable_natCast (K := K) (n := 0) (Nat.zero_le _)
  rwa [Nat.cast_zero] at h

/-- A number of the format below an exact result is below the rounded one. -/
theorem le_fl (hx : Representable x) (h : x ≤ y) : x ≤ fl y := by
  calc x = fl x := hx.symm
    _ ≤ fl y := LawfulRounding.fl_mono h

theorem fl_le (hy : Representable y) (h : x ≤ y) : fl x ≤ y := by
  calc fl x ≤ fl y := LawfulRounding.fl_mono h
    _ = y := hy

theorem fl_nonneg (h : 0 ≤ x) : 0 ≤ fl x := le_fl representable_zero h

end Lawful

/-! ## binary formats -/

/-- The nearest integer; of two the even one. -/
def roundHalfEven (q : ℚ) : ℤ :=
  if q - ⌊q⌋ < 1 / 2 ∨ (q - ⌊q⌋ = 1 / 2 ∧ ⌊q⌋ % 2 = 0) then ⌊q⌋ else ⌊q⌋ + 1

/-- The distance of two neighbours of `p` binary digits around `q`. -/
def ulp (p : ℕ) (q : ℚ) : ℚ := 2 ^ (Int.log 2 q + 1 - p)

/-- Rounding to `p` binary digits. -/
def binary (p : ℕ) (q : ℚ) : ℚ :=
  if q < 0 then -(roundHalfEven (-q / ulp p (-q)) * ulp p (-q))
  else roundHalfEven (q / ulp p q) * ulp p q

/-! ### the nearest integer -/

theorem roundHalfEven_mem (q : ℚ) :
    ⌊q⌋ ≤ roundHalfEven q ∧ roundHalfEven q ≤ ⌊q⌋ + 1 := by
  unfold roundHalfEven
  split <;> constructor <;> omega

theorem roundHalfEven_intCast (n : ℤ) : roundHalfEven n = n := by
  rw [roundHalfEven, Int.floor_intCast, sub_self, if_pos (.inl (by norm_num))]

theorem roundHalfEven_mono : Monotone roundHalfEven := by
  intro x y hxy
  obtain hlt | heq := (Int.floor_mono hxy).lt_or_eq
  · calc roundHalfEven x ≤ ⌊x⌋ + 1 := (roundHalfEven_mem x).2
      _ ≤ ⌊y⌋ := hlt
      _ ≤ roundHalfEven y := (roundHalfEven_mem y).1
  · -- in one unit interval: the condition for rounding down is inherited downwards
    unfold roundHalfEven
    rw [heq]
    have hsub : x - ⌊y⌋ ≤ y - ⌊y⌋ := sub_le_sub_right hxy _
    split
    · split <;> omega
    · next hx =>
      rw [if_neg]
      rintro (hy | ⟨hy, heven⟩)
      · exact hx (.inl (hsub.trans_lt hy))
      · obtain hlt | heq := (hsub.trans hy.le).lt_or_eq
        · exact hx (.inl hlt)
        · exact hx (.inr ⟨heq, heven⟩)

/-! ### numbers of `p` binary digits -/

variable {p : ℕ} {q : ℚ}

theorem ulp_pos (p : ℕ) (q : ℚ) : 0 < ulp p q := zpow_pos (by norm_num) _

/-- Positive numbers are rounded between the powers of two around them. -/
theorem binary_mem (hp : 0 < p) (hq : 0 < q) :
    (2 : ℚ) ^ Int.log 2 q ≤ roundHalfEven (q / ulp p q) * ulp p q ∧
      roundHalfEven (q / ulp p q) * ulp p q ≤ (2 : ℚ) ^ (Int.log 2 q + 1) := by
  have hu := ulp_pos p q
  obtain ⟨k, rfl⟩ : ∃ k, p = k + 1 := ⟨p - 1, by omega⟩
  have hlow : ((2 ^ k : ℤ) : ℚ) * ulp (k + 1) q = (2 : ℚ) ^ Int.log 2 q := by
    rw [ulp, Int.cast_pow, Int.cast_ofNat, ← zpow_natCast, ← zpow_add₀ (by norm_num)]
    congr 1
    push_cast
    ring
  have hhigh : ((2 ^ (k + 1) : ℤ) : ℚ) * ulp (k + 1) q = (2 : ℚ) ^ (Int.log 2 q + 1) := by
    rw [zpow_add₀ (by norm_num), ← hlow, pow_succ]
    push_cast
    ring
  constructor
  · rw [← hlow]
    refine mul_le_mul_of_nonneg_right (Int.cast_le.mpr ?_) hu.le
    rw [← roundHalfEven_intCast (2 ^ k)]
    refine roundHalfEven_mono ((le_div_iff₀ hu).mpr ?_)
    rw [hlow]
    exact Int.zpow_log_le_self (by norm_num) hq
  · rw [← hhigh]
    refine mul_le_mul_of_nonneg_right (Int.cast_le.mpr ?_) hu.le
    rw [← roundHalfEven_intCast (2 ^ (k + 1))]
    refine roundHalfEven_mono ((div_le_iff₀ hu).mpr ?_)
    rw [hhigh]
    exact (Int.lt_zpow_succ_log_self (by norm_num) q).le

/-- A multiple of the distance to its neighbours is a number of the format. -/
theorem binary_eq_self (hq : 0 ≤ q) {n : ℤ} (hn : q = n * ulp p q) : binary p q = q := by
  have hdiv : q / ulp p q = n := (div_eq_iff (ulp_pos p q).ne').mpr hn
  rw [binary, if_neg hq.not_gt, hdiv, roundHalfEven_intCast, ← hn]

theorem binary_of_nonneg (hq : 0 ≤ q) :
    binary p q = roundHalfEven (q / ulp p q) * ulp p q := if_neg hq.not_gt

theorem binary_of_neg (hq : q < 0) : binary p q = -binary p (-q) := by
  rw [binary_of_nonneg (neg_nonneg.mpr hq.le), binary, if_pos hq]

theorem binary_nonneg (hq : 0 ≤ q) : 0 ≤ binary p q := by
  have hdiv : 0 ≤ q / ulp p q := div_nonneg hq (ulp_pos p q).le
  rw [binary_of_nonneg hq]
  refine mul_nonneg (Int.cast_nonneg ?_) (ulp_pos p q).le
  rw [← roundHalfEven_intCast 0]
  exact roundHalfEven_mono (by rwa [Int.cast_zero])

/-- Positive numbers: a binade is rounded by one distance, and the binades do not
overlap. -/
theorem binary_mono_of_pos (hp : 0 < p) {x y : ℚ} (hx : 0 < x) (hxy : x ≤ y) :
    binary p x ≤ binary p y := by
  have hy : 0 < y := hx.trans_le hxy
  rw [binary_of_nonneg hx.le, binary_of_nonneg hy.le]
  obtain hlt | heq := (Int.log_mono_right (b := 2) hx hxy).lt_or_eq
  · calc roundHalfEven (x / ulp p x) * ulp p x ≤ (2 : ℚ) ^ (Int.log 2 x + 1) :=
        (binary_mem hp hx).2
      _ ≤ (2 : ℚ) ^ Int.log 2 y := zpow_le_zpow_right₀ (by norm_num) hlt
      _ ≤ roundHalfEven (y / ulp p y) * ulp p y := (binary_mem hp hy).1
  · have hulp : ulp p x = ulp p y := by rw [ulp, ulp, heq]
    rw [hulp]
    refine mul_le_mul_of_nonneg_right (Int.cast_le.mpr (roundHalfEven_mono ?_)) (ulp_pos p y).le
    exact div_le_div_of_nonneg_right hxy (ulp_pos p y).le

theorem binary_mono (hp : 0 < p) : Monotone (binary p) := by
  have hzero : binary p 0 = 0 := binary_eq_self le_rfl (n := 0) (by simp)
  intro x y hxy
  rcases lt_trichotomy x 0 with hx | rfl | hx
  · rcases lt_or_ge y 0 with hy | hy
    · rw [binary_of_neg hx, binary_of_neg hy]
      exact neg_le_neg (binary_mono_of_pos hp (neg_pos.mpr hy) (neg_le_neg hxy))
    · rw [binary_of_neg hx]
      exact (neg_nonpos.mpr (binary_nonneg (neg_nonneg.mpr hx.le))).trans (binary_nonneg hy)
  · rw [hzero]
    exact binary_nonneg hxy
  · exact binary_mono_of_pos hp hx hxy

/-- What is rounded is a number of the format: it stays among the multiples of
its own distance, unless it has become the next power of two. -/
theorem binary_binary_of_pos (hp : 0 < p) (hq : 0 < q) :
    binary p (binary p q) = binary p q := by
  obtain ⟨hlow, hhigh⟩ := binary_mem hp hq
  rw [← binary_of_nonneg hq.le] at hlow hhigh
  have hpos : 0 < binary p q := (zpow_pos (by norm_num) _).trans_le hlow
  obtain hlt | heq := hhigh.lt_or_eq
  · have hlog : Int.log 2 (binary p q) = Int.log 2 q :=
      le_antisymm (Int.lt_add_one_iff.mp ((Int.lt_zpow_iff_log_lt (by norm_num) hpos).mp hlt))
        ((Int.zpow_le_iff_le_log (by norm_num) hpos).mp hlow)
    have hulp : ulp p (binary p q) = ulp p q := by rw [ulp, ulp, hlog]
    refine binary_eq_self hpos.le (n := roundHalfEven (q / ulp p q)) ?_
    rw [hulp]
    exact binary_of_nonneg hq.le
  · have hlog : Int.log 2 (binary p q) = Int.log 2 q + 1 := by
      rw [heq]
      exact Int.log_zpow (by norm_num) _
    obtain ⟨k, rfl⟩ : ∃ k, p = k + 1 := ⟨p - 1, by omega⟩
    refine binary_eq_self hpos.le (n := 2 ^ k) ?_
    rw [ulp, hlog, heq, Int.cast_pow, Int.cast_ofNat, ← zpow_natCast, ← zpow_add₀ (by norm_num)]
    congr 1
    push_cast
    ring

theorem binary_binary (hp : 0 < p) (q : ℚ) : binary p (binary p q) = binary p q := by
  rcases lt_trichotomy q 0 with hq | rfl | hq
  · have hneg := binary_binary_of_pos hp (neg_pos.mpr hq)
    rw [binary_of_neg hq]
    rcases (binary_nonneg (p := p) (neg_nonneg.mpr hq.le)).lt_or_eq with hpos | hzero
    · rw [binary_of_neg (neg_neg_iff_pos.mpr hpos), neg_neg, hneg]
    · rw [← hzero, neg_zero, hzero, hneg]
  · have hzero : binary p 0 = 0 := binary_eq_self le_rfl (n := 0) (by simp)
    rw [hzero, hzero]
  · exact binary_binary_of_pos hp hq

/-- Integers of at most `p` digits are numbers of the format. -/
theorem binary_natCast {n : ℕ} (hn : n < 2 ^ p) : binary p n = n := by
  rcases Nat.eq_zero_or_pos n with rfl | hpos
  · exact binary_eq_self (Nat.cast_nonneg 0) (n := 0) (by simp)
  · have hlog : Int.log 2 (n : ℚ) < p := by
      rw [Int.log_natCast]
      exact_mod_cast Nat.log_lt_of_lt_pow hpos.ne' hn
    obtain ⟨k, hk⟩ : ∃ k : ℕ, (p : ℤ) = Int.log 2 (n : ℚ) + 1 + k :=
      ⟨(p - (Int.log 2 (n : ℚ) + 1)).toNat, by omega⟩
    refine binary_eq_self (Nat.cast_nonneg n) (n := n * 2 ^ k) ?_
    rw [ulp, hk, show Int.log 2 (n : ℚ) + 1 - (Int.log 2 (n : ℚ) + 1 + k) = -(k : ℤ) by ring,
      zpow_neg, zpow_natCast]
    push_cast
    rw [mul_assoc, mul_inv_cancel₀ (pow_ne_zero k (by norm_num)), mul_one]

/-- Binary rounding to at least 25 digits is lawful. -/
theorem lawful_binary (hp : 25 ≤ p) : @LawfulRounding ℚ _ _ ⟨binary p⟩ :=
  letI : Rounding ℚ := ⟨binary p⟩
  { fl_mono := binary_mono (by omega)
    fl_fl := binary_binary (by omega)
    fl_natCast := fun n hn => binary_natCast
      (hn.trans_lt (Nat.pow_lt_pow_right (by norm_num) (by omega))) }

end Rounding
