import Rgnr8.Forecast.Flow
import Mathlib.Algebra.Order.Round

/-! Scaling of amounts: what is nearest to the exact product, the even one of two. -/

namespace Rgnr8.Forecast

/-- No integer is nearer to `x`, and one that is as near leaves `r` even. -/
def HalfEven (x : ℚ) (r : Int) : Prop := ∀ n, n ≠ r → |x - r| < |x - n| ∨ (|x - r| = |x - n| ∧ Even r)

namespace HalfEven
variable {x y : ℚ} {r s : Int}

theorem of_near (hnear : |x - r| ≤ 1 / 2) (heven : |x - r| = 1 / 2 → Even r) : HalfEven x r := by
  intro n hn
  have hapart : (1 : ℚ) ≤ |(r : ℚ) - n| := by
    exact_mod_cast Int.one_le_abs (sub_ne_zero.mpr hn.symm)
  have htrian : |(r : ℚ) - n| ≤ |x - r| + |x - n| := by
    rw [abs_sub_comm x]
    exact abs_sub_le _ _ _
  rcases hnear.lt_or_eq with hlt | heq
  · exact .inl (by linarith)
  · rcases (by linarith : |x - r| ≤ |x - n|).lt_or_eq with hlt | htie
    · exact .inl hlt
    · exact .inr ⟨htie, heven heq⟩

theorem le (h : HalfEven x r) (n : Int) : |x - r| ≤ |x - n| := by
  by_cases hn : n = r
  · rw [hn]
  · exact (h n hn).elim le_of_lt fun h => h.1.le

theorem neg (h : HalfEven x r) : HalfEven (-x) (-r) := by
  have hflip : ∀ n : Int, |-x - (n : ℚ)| = |x - (-n : Int)| := by
    intro n
    rw [← abs_neg]
    push_cast
    ring_nf
  intro n hn
  rw [hflip, hflip, neg_neg, even_neg]
  exact h (-n) fun hr => hn (by rw [← hr, neg_neg])

theorem cast (n : Int) : HalfEven n n := of_near (by norm_num) (by norm_num)

/-- Of two integers that are as near the smaller is chosen only if both numbers are between them and
both integers are even; but then another one is between the two. -/
theorem mono (hx : HalfEven x r) (hy : HalfEven y s) (hle : x ≤ y) : r ≤ s := by
  by_contra hlt
  rw [not_le] at hlt
  have hgap : (s : ℚ) < r := by exact_mod_cast hlt
  have hlow : (r : ℚ) + s ≤ 2 * x := by
    have hsq := sq_le_sq.mpr (hx.le s)
    nlinarith
  have hhigh : 2 * y ≤ (r : ℚ) + s := by
    have hsq := sq_le_sq.mpr (hy.le r)
    nlinarith
  have hmid : 2 * x = (r : ℚ) + s := by linarith
  obtain rfl : x = y := by linarith
  have htie : |x - r| = |x - s| := by
    rw [show x - r = -(x - s) by linarith, abs_neg]
  have hr := ((hx s hlt.ne).resolve_left (by rw [htie]; exact lt_irrefl _)).2
  have hs := ((hy r hlt.ne').resolve_left (by rw [htie]; exact lt_irrefl _)).2
  obtain ⟨n, hn⟩ := hr.add hs
  have hat : x = n := by
    have hn' : (r : ℚ) + s = n + n := by exact_mod_cast hn
    linarith
  have hzero := hx.le n
  rw [hat, sub_self, abs_zero, abs_nonpos_iff, sub_eq_zero] at hzero
  have hnr : n = r := by exact_mod_cast hzero
  omega

theorem unique (hr : HalfEven x r) (hs : HalfEven x s) : r = s :=
  le_antisymm (hr.mono hs le_rfl) (hs.mono hr le_rfl)

end HalfEven

namespace Money
variable {m m' r r' : Money} {num den : Int}

def neg (m : Money) : Money := ⟨-m.minorUnits, m.currency⟩

theorem halfEven_quotient (a : Int) (hden : 0 < den) : HalfEven (a / den)
      (if den < a % den * 2 ∨ (a % den * 2 = den ∧ a / den % 2 ≠ 0) then a / den + 1 else a / den) := by
  have hden' : (0 : ℚ) < den := by exact_mod_cast hden
  have hsplit : (a : ℚ) / den = (a / den : Int) + ((a % den : Int) : ℚ) / den := by
    have hdiv := Int.emod_add_mul_ediv a den
    have hdiv' : ((a % den : Int) : ℚ) + den * (a / den : Int) = a := by exact_mod_cast hdiv
    rw [div_eq_iff hden'.ne', add_mul, div_mul_cancel₀ _ hden'.ne']
    linarith
  have hlow : (0 : ℚ) ≤ ((a % den : Int) : ℚ) / den :=
    div_nonneg (by exact_mod_cast Int.emod_nonneg a hden.ne') hden'.le
  rw [hsplit]
  split_ifs with hup
  · -- at least half is left over
    have hhalf : (1 : ℚ) / 2 ≤ ((a % den : Int) : ℚ) / den := by
      rw [div_le_div_iff₀ two_pos hden', one_mul]
      exact_mod_cast hup.elim le_of_lt fun h => h.1.ge
    have hhigh : ((a % den : Int) : ℚ) / den < 1 := by
      rw [div_lt_one hden']
      exact_mod_cast Int.emod_lt_of_pos a hden
    have habs : |((a / den : Int) : ℚ) + ((a % den : Int) : ℚ) / den - ((a / den + 1 : Int) : ℚ)| =
        1 - ((a % den : Int) : ℚ) / den := by
      rw [abs_of_nonpos (by push_cast; linarith)]
      push_cast
      ring
    refine .of_near (by linarith) fun heq => ?_
    have htwice : a % den * 2 = den := by
      have h : ((a % den : Int) : ℚ) / den = 1 / 2 := by linarith
      rw [div_eq_div_iff hden'.ne' two_ne_zero, one_mul] at h
      exact_mod_cast h
    have hodd := (hup.resolve_left (by omega)).2
    exact Int.even_iff.mpr (by omega)
  · rw [not_or] at hup
    have hhalf : ((a % den : Int) : ℚ) / den ≤ 1 / 2 := by
      rw [div_le_div_iff₀ hden' two_pos, one_mul]
      exact_mod_cast not_lt.mp hup.1
    have habs : |((a / den : Int) : ℚ) + ((a % den : Int) : ℚ) / den - (a / den : Int)| =
        ((a % den : Int) : ℚ) / den := by
      rw [add_sub_cancel_left, abs_of_nonneg hlow]
    refine .of_near (by linarith) fun heq => ?_
    have htwice : a % den * 2 = den := by
      have h : ((a % den : Int) : ℚ) / den = 1 / 2 := by linarith
      rw [div_eq_div_iff hden'.ne' two_ne_zero, one_mul] at h
      exact_mod_cast h
    exact Int.even_iff.mpr (by omega)

theorem scaleBy_halfEven (m : Money) (num : Int) (hden : den ≠ 0) :
    ∃ q, m.scaleBy num den = .ok ⟨q, m.currency⟩ ∧ HalfEven (m.minorUnits * num / den) q := by
  unfold scaleBy
  rw [if_neg hden]
  refine ⟨_, rfl, ?_⟩
  -- a negative denominator passes its sign on to the numerator
  by_cases hneg : den < 0
  · have hquot := halfEven_quotient (-(m.minorUnits * num)) (neg_pos.mpr hneg)
    rw [if_pos hneg, abs_of_neg hneg]
    push_cast at hquot ⊢
    rwa [neg_div_neg_eq] at hquot
  · have hpos : 0 < den := lt_of_le_of_ne (not_lt.mp hneg) hden.symm
    have hquot := halfEven_quotient (m.minorUnits * num) hpos
    rw [if_neg hneg, abs_of_pos hpos]
    push_cast at hquot
    exact hquot

theorem halfEven_of_scaleBy (hden : den ≠ 0) (h : m.scaleBy num den = .ok r) :
    HalfEven (m.minorUnits * num / den) r.minorUnits := by
  obtain ⟨q, hq, heven⟩ := scaleBy_halfEven m num hden
  rw [← Except.ok.inj (hq.symm.trans h)]
  exact heven

theorem scaleBy_mono (hden : den ≠ 0) (hratio : (0 : ℚ) ≤ num / den)
    (h : m.scaleBy num den = .ok r) (h' : m'.scaleBy num den = .ok r')
    (hle : m.minorUnits ≤ m'.minorUnits) : r.minorUnits ≤ r'.minorUnits := by
  refine (halfEven_of_scaleBy hden h).mono (halfEven_of_scaleBy hden h') ?_
  rw [mul_div_assoc, mul_div_assoc]
  exact mul_le_mul_of_nonneg_right (by exact_mod_cast hle) hratio

theorem scaleBy_between (hden : den ≠ 0) (hratio : (0 : ℚ) ≤ num / den) (hone : (num : ℚ) / den ≤ 1)
    (h : m.scaleBy num den = .ok r) :
    min 0 m.minorUnits ≤ r.minorUnits ∧ r.minorUnits ≤ max 0 m.minorUnits := by
  have heven := halfEven_of_scaleBy hden h
  rw [mul_div_assoc] at heven
  constructor
  · refine (HalfEven.cast _).mono heven ?_
    rcases le_total 0 m.minorUnits with hm | hm
    · rw [min_eq_left hm, Int.cast_zero]
      exact mul_nonneg (by exact_mod_cast hm) hratio
    · rw [min_eq_right hm]
      exact le_mul_of_le_one_right (by exact_mod_cast hm) hone
  · refine heven.mono (.cast _) ?_
    rcases le_total 0 m.minorUnits with hm | hm
    · rw [max_eq_right hm]
      exact mul_le_of_le_one_right (by exact_mod_cast hm) hone
    · rw [max_eq_left hm, Int.cast_zero]
      exact mul_nonpos_of_nonpos_of_nonneg (by exact_mod_cast hm) hratio

theorem scaleBy_exact (num : Int) (hden : den ≠ 0) :
    (∀ m, ∃ q, scaleBy m num den = .ok ⟨q, m.currency⟩ ∧ HalfEven (m.minorUnits * num / den) q) ∧
    (∀ m r, scaleBy m num den = .ok r → m.neg.scaleBy num den = .ok r.neg) ∧
    ((0 : ℚ) ≤ num / den → ∀ m m' r r', scaleBy m num den = .ok r → scaleBy m' num den = .ok r' →
      m.minorUnits ≤ m'.minorUnits → r.minorUnits ≤ r'.minorUnits) ∧
    ((0 : ℚ) ≤ num / den → (num : ℚ) / den ≤ 1 → ∀ m r, scaleBy m num den = .ok r →
      min 0 m.minorUnits ≤ r.minorUnits ∧ r.minorUnits ≤ max 0 m.minorUnits) := by
  refine ⟨fun m => scaleBy_halfEven m num hden, fun m r h => ?_,
    fun hratio m m' r r' => scaleBy_mono hden hratio,
    fun hratio hone m r => scaleBy_between hden hratio hone⟩
  obtain ⟨q, hq, heven⟩ := scaleBy_halfEven m num hden
  obtain ⟨q', hq', heven'⟩ := scaleBy_halfEven m.neg num hden
  have hq'' : q' = -q := by
    refine heven'.unique ?_
    have hneg := heven.neg
    rwa [← neg_div, ← neg_mul, ← Int.cast_neg] at hneg
  rw [hq', hq'', ← Except.ok.inj (hq.symm.trans h)]
  rfl

theorem negative_halves_to_even : HalfEven (((-5 : Int) * (1 : Int) : ℚ) / (2 : Int)) (-2) ∧
      (⟨-5, "USD"⟩ : Money).scaleBy 1 2 = .ok ⟨-2, "USD"⟩ := by
  obtain ⟨q, hq, heven⟩ := (scaleBy_exact 1 (show (2 : Int) ≠ 0 by decide)).1 ⟨-5, "USD"⟩
  have hscale : (⟨-5, "USD"⟩ : Money).scaleBy 1 2 = .ok ⟨-2, "USD"⟩ := by decide
  obtain rfl : q = -2 := congrArg Money.minorUnits (Except.ok.inj (hq.symm.trans hscale))
  exact ⟨heven, hscale⟩

end Money

end Rgnr8.Forecast
