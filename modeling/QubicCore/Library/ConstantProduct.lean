import Mathlib

/-!
# Constant products with rounding

A pool of reserves `x` and `y` quotes an exchange so that the product of the reserves does not fall.
A quote takes its fee as a fraction `f / b` of one side and rounds by division; the amount received
is rounded down, the amount to pay is rounded down and increased by one.

Shares `t` of a pool are issued and redeemed in proportion to both reserves, rounded down.
-/

namespace QubicCore.Library.ConstantProduct

variable {x y b f pay out : Int}

/-- The amount received for `pay`, of which the fraction `f / b` is kept as a fee. -/
lemma product_le_of_exact_in {kept : Int} (hx : 0 < x) (hb : 0 < b) (hf : f < b)
    (hpay : 0 ≤ pay) (hout : out = y * (pay * (b - f)) / (x * b + pay * (b - f)))
    (hkept : kept * b ≤ pay * f) (hy : 0 < y) :
    x * y ≤ (x + (pay - kept)) * (y - out) ∧ out < y ∧ 0 ≤ out := by
  have hnet : 0 ≤ pay * (b - f) := mul_nonneg hpay (by omega)
  have hxb : 0 < x * b := mul_pos hx hb
  have hdiv : out * (x * b + pay * (b - f)) ≤ y * (pay * (b - f)) := by
    rw [hout]
    exact Int.ediv_mul_le _ (by omega)
  have hpos : 0 ≤ out := hout ▸ Int.ediv_nonneg (mul_nonneg hy.le hnet) (by omega)
  have hlt : out < y := by
    by_contra hge
    have : y * (x * b + pay * (b - f)) ≤ out * (x * b + pay * (b - f)) :=
      mul_le_mul_of_nonneg_right (not_lt.1 hge) (by omega)
    have hyx : 0 < y * (x * b) := mul_pos hy hxb
    rw [mul_add] at this
    omega
  refine ⟨?_, hlt, hpos⟩
  have hreserve : x * b + pay * (b - f) ≤ (x + (pay - kept)) * b := by linarith
  have hscaled : x * y * b ≤ (x + (pay - kept)) * (y - out) * b := by
    calc x * y * b = y * (x * b + pay * (b - f)) - y * (pay * (b - f)) := by ring
      _ ≤ y * (x * b + pay * (b - f)) - out * (x * b + pay * (b - f)) := by linarith
      _ = (x * b + pay * (b - f)) * (y - out) := by ring
      _ ≤ (x + (pay - kept)) * b * (y - out) := mul_le_mul_of_nonneg_right hreserve (by omega)
      _ = (x + (pay - kept)) * (y - out) * b := by ring
  exact le_of_mul_le_mul_right hscaled hb

/-- The amount to pay for `out`, of which the fraction `f / b` is kept as a fee. -/
lemma product_le_of_exact_out {kept : Int} (hb : 0 < b) (hf : f < b) (hout : out < y)
    (hpay : pay = x * out * b / ((y - out) * (b - f)) + 1) (hkept : kept * b ≤ pay * f) :
    x * y ≤ (x + (pay - kept)) * (y - out) := by
  have hd : 0 < (y - out) * (b - f) := mul_pos (by omega) (by omega)
  have hpaid : x * out * b < pay * ((y - out) * (b - f)) := 
    hpay ▸ Int.lt_ediv_add_one_mul_self _ hd
  have hreserve : x * b + pay * (b - f) ≤ (x + (pay - kept)) * b := by linarith
  have hscaled : x * y * b ≤ (x + (pay - kept)) * (y - out) * b := by
    calc x * y * b = x * b * (y - out) + x * out * b := by ring
      _ ≤ x * b * (y - out) + pay * ((y - out) * (b - f)) := by linarith
      _ = (x * b + pay * (b - f)) * (y - out) := by ring
      _ ≤ (x + (pay - kept)) * b * (y - out) := mul_le_mul_of_nonneg_right hreserve (by omega)
      _ = (x + (pay - kept)) * (y - out) * b := by ring
  exact le_of_mul_le_mul_right hscaled hb

/-- The gross amount for `pay`, from which the fee is taken afterwards: what leaves the reserve
`y` is at most the gross amount. -/
lemma product_le_of_gross {gross taken : Int} (hx : 0 < x) (hy : 0 < y) (hpay : 0 ≤ pay)
    (hgross : gross = y * pay / (x + pay)) (htaken : taken ≤ gross) :
    y * x ≤ (y - taken) * (x + pay) ∧ gross < y ∧ 0 ≤ gross := by
  have hd : 0 < x + pay := by omega
  have hdiv : gross * (x + pay) ≤ y * pay := by
    rw [hgross]
    exact Int.ediv_mul_le _ (by omega)
  have hpos : 0 ≤ gross := hgross ▸ Int.ediv_nonneg (mul_nonneg hy.le hpay) hd.le
  have hlt : gross < y := by
    by_contra hge
    have := mul_le_mul_of_nonneg_right (not_lt.1 hge) hd.le
    have hyx : 0 < y * x := mul_pos hy hx
    rw [mul_add] at this
    omega
  refine ⟨?_, hlt, hpos⟩
  have htaken' : taken * (x + pay) ≤ gross * (x + pay) := mul_le_mul_of_nonneg_right htaken hd.le
  calc y * x = y * (x + pay) - y * pay := by ring
    _ ≤ y * (x + pay) - taken * (x + pay) := by linarith
    _ = (y - taken) * (x + pay) := by ring

/-- The amount to pay for `out` net of a fee taken on the way out. -/
lemma product_le_of_net {taken : Int} (hx : 0 ≤ x) (hf : f < b)
    (hroom : out * b < y * (b - f)) (hpay₀ : 0 ≤ pay)
    (hpay : pay = x * out * b / (y * (b - f) - out * b) + 1) (htaken : taken * (b - f) ≤ out * b) :
    y * x ≤ (y - taken) * (x + pay) ∧ taken < y := by
  have hbf : 0 < b - f := by omega
  have hd : 0 < y * (b - f) - out * b := by omega
  have hpaid : x * out * b < pay * (y * (b - f) - out * b) := 
    hpay ▸ Int.lt_ediv_add_one_mul_self _ hd
  have hleft : y * (b - f) - out * b ≤ (y - taken) * (b - f) := by linarith
  constructor
  · have hscaled : y * x * (b - f) ≤ (y - taken) * (x + pay) * (b - f) := by
      calc y * x * (b - f) = x * (y * (b - f) - out * b) + x * out * b := by ring
        _ ≤ x * (y * (b - f) - out * b) + pay * (y * (b - f) - out * b) := by linarith
        _ = (y * (b - f) - out * b) * (x + pay) := by ring
        _ ≤ (y - taken) * (b - f) * (x + pay) := mul_le_mul_of_nonneg_right hleft (by omega)
        _ = (y - taken) * (x + pay) * (b - f) := by ring
    exact le_of_mul_le_mul_right hscaled hbf
  · have : 0 < (y - taken) * (b - f) := by omega
    have := (mul_pos_iff_of_pos_right hbf).1 this
    omega

/-! ## Shares of a pool -/

section

variable {t : Int}

lemma root_le_of_deposit {q r issued : Int} (hx : 0 < x) (hy : 0 < y) (ht : 0 ≤ t)
    (hissued : 0 ≤ issued) (hq₀ : 0 ≤ q) (hr₀ : 0 ≤ r) (hroot : t * t ≤ x * y)
    (hq : issued * x ≤ q * t) (hr : issued * y ≤ r * t) :
    (t + issued) * (t + issued) ≤ (x + q) * (y + r) := by
  have hxt : (t + issued) * x ≤ t * (x + q) := by linarith
  have hyt : (t + issued) * y ≤ t * (y + r) := by linarith
  have hscaled : (t + issued) * (t + issued) * (x * y) ≤ (x + q) * (y + r) * (x * y) :=
    calc (t + issued) * (t + issued) * (x * y) = ((t + issued) * x) * ((t + issued) * y) := by ring
      _ ≤ (t * (x + q)) * (t * (y + r)) :=
        mul_le_mul hxt hyt (mul_nonneg (by omega) hy.le) (mul_nonneg ht (by omega))
      _ = t * t * ((x + q) * (y + r)) := by ring
      _ ≤ x * y * ((x + q) * (y + r)) :=
        mul_le_mul_of_nonneg_right hroot (mul_nonneg (by omega) (by omega))
      _ = (x + q) * (y + r) * (x * y) := by ring
  exact le_of_mul_le_mul_right hscaled (mul_pos hx hy)

lemma root_le_of_redeem {q r redeemed : Int} (hx : 0 ≤ x) (hy : 0 ≤ y) (ht : 0 < t)
    (hredeemed : redeemed ≤ t) (hroot : t * t ≤ x * y) (hq : q * t ≤ redeemed * x)
    (hr : r * t ≤ redeemed * y) :
    (t - redeemed) * (t - redeemed) ≤ (x - q) * (y - r) := by
  have hxt : x * (t - redeemed) ≤ (x - q) * t := by linarith
  have hyt : y * (t - redeemed) ≤ (y - r) * t := by linarith
  have hrest : 0 ≤ t - redeemed := by omega
  have hscaled : (t - redeemed) * (t - redeemed) * (t * t) ≤ (x - q) * (y - r) * (t * t) :=
    calc (t - redeemed) * (t - redeemed) * (t * t) ≤ (t - redeemed) * (t - redeemed) * (x * y) :=
          mul_le_mul_of_nonneg_left hroot (mul_nonneg hrest hrest)
      _ = (x * (t - redeemed)) * (y * (t - redeemed)) := by ring
      _ ≤ ((x - q) * t) * ((y - r) * t) :=
        mul_le_mul hxt hyt (mul_nonneg hy hrest) ((mul_nonneg hx hrest).trans hxt)
      _ = (x - q) * (y - r) * (t * t) := by ring
  exact le_of_mul_le_mul_right hscaled (mul_pos ht ht)

lemma redeem_mem {redeemed : Int} (hx : 0 ≤ x) (ht : 0 < t) (hredeemed : 0 ≤ redeemed)
    (hle : redeemed ≤ t) : 0 ≤ redeemed * x / t ∧ redeemed * x / t ≤ x := by
  refine ⟨Int.ediv_nonneg (mul_nonneg hredeemed hx) ht.le, ?_⟩
  refine Int.ediv_le_of_le_mul ht ?_
  rw [mul_comm x]
  exact mul_le_mul_of_nonneg_right hle hx

end

end QubicCore.Library.ConstantProduct
