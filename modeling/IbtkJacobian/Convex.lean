import IbtkJacobian.Kernels
import IbtkJacobian.Isoparametric

/- The sign of the `Quad4` kernel's `J`. `J` agrees with the bilinear interpolation of its
   four corner values (`Quad4Coefficients.jacobian_eq_corners`, since its `xy` terms cancel),
   and at libMesh's reference corner `m` it is a quarter of the cross product of the two
   element edges at node `m` (`quad4_jacobian_corner`). On a strictly convex
   counter-clockwise quadrilateral all four are positive, so `J` is positive on the whole
   reference square, and `get_JxW` never fails its `J > 0` assertion for a rule with its
   points in the square (`quad4_convex_jacobian_pos`). -/

namespace IBTK

/-- The cross product `(p_{k+1} − p_k) × (p_{k+3} − p_k)` of the two edges of the
quadrilateral `p` at corner `k`, indices mod 4: positive at every corner of a strictly
convex counter-clockwise quadrilateral. -/
def cornerCross {R : Type} [LinearOrderedField R] (p : Fin 4 → Point R) (k : Fin 4) : R :=
  (p (k + 1) 0 - p k 0) * (p (k + 3) 1 - p k 1) - (p (k + 1) 1 - p k 1) * (p (k + 3) 0 - p k 0)

theorem cornerCross_eq {R : Type} [LinearOrderedField R] (p : Fin 4 → Point R) :
    cornerCross p 0 = (p 1 0 - p 0 0) * (p 3 1 - p 0 1) - (p 1 1 - p 0 1) * (p 3 0 - p 0 0) ∧
    cornerCross p 1 = (p 2 0 - p 1 0) * (p 0 1 - p 1 1) - (p 2 1 - p 1 1) * (p 0 0 - p 1 0) ∧
    cornerCross p 2 = (p 3 0 - p 2 0) * (p 1 1 - p 2 1) - (p 3 1 - p 2 1) * (p 1 0 - p 2 0) ∧
    cornerCross p 3 = (p 0 0 - p 3 0) * (p 2 1 - p 3 1) - (p 0 1 - p 3 1) * (p 2 0 - p 3 0) :=
  ⟨rfl, rfl, rfl, rfl⟩

/-- The kernel's `J` is the bilinear interpolation of its corner values. -/
theorem Quad4Coefficients.jacobian_eq_corners (k : Quad4Coefficients ℝ) (x y : ℝ) :
    4 * k.jacobian x y =
      (1 - y) * ((1 - x) * k.jacobian (-1) (-1) + (1 + x) * k.jacobian 1 (-1)) +
        (1 + y) * ((1 - x) * k.jacobian (-1) 1 + (1 + x) * k.jacobian 1 1) := by
  simp only [Quad4Coefficients.jacobian]
  ring

theorem interp_pos {a b t : ℝ} (h1 : -1 ≤ t) (h2 : t ≤ 1) (ha : 0 < a) (hb : 0 < b) :
    0 < (1 - t) * a + (1 + t) * b := by
  rcases le_total t 0 with ht | ht
  · exact add_pos_of_pos_of_nonneg (mul_pos (by linarith) ha) (mul_nonneg (by linarith) hb.le)
  · exact add_pos_of_nonneg_of_pos (mul_nonneg (by linarith) ha.le) (mul_pos (by linarith) hb)

/-- A kernel `J` positive at the four reference corners is positive on `[-1, 1]²`. -/
theorem Quad4Coefficients.jacobian_pos (k : Quad4Coefficients ℝ)
    (h00 : 0 < k.jacobian (-1) (-1)) (h10 : 0 < k.jacobian 1 (-1)) (h11 : 0 < k.jacobian 1 1)
    (h01 : 0 < k.jacobian (-1) 1) {x y : ℝ} (hx : -1 ≤ x ∧ x ≤ 1)
    (hy : -1 ≤ y ∧ y ≤ 1) :
    0 < k.jacobian x y := by
  have h := interp_pos hy.1 hy.2 (interp_pos hx.1 hx.2 h00 h10) (interp_pos hx.1 hx.2 h01 h11)
  linarith [k.jacobian_eq_corners x y]

theorem quad4_jacobian_corners (p : Fin 4 → Point ℝ) :
    let k := Quad4Coefficients.of (p 0) (p 1) (p 2) (p 3)
    k.jacobian (-1) (-1) = cornerCross p 0 / 4 ∧ k.jacobian 1 (-1) = cornerCross p 1 / 4 ∧
      k.jacobian 1 1 = cornerCross p 2 / 4 ∧ k.jacobian (-1) 1 = cornerCross p 3 / 4 := by
  obtain ⟨h0, h1, h2, h3⟩ := cornerCross_eq p
  refine ⟨?_, ?_, ?_, ?_⟩ <;>
    simp only [Quad4Coefficients.jacobian, Quad4Coefficients.of, h0, h1, h2, h3] <;> ring

theorem quad4_jacobian_corner (p : Fin 4 → Point ℝ) (m : Fin 4) :
    (Quad4Coefficients.of (p 0) (p 1) (p 2) (p 3)).jacobian (quad4RefNode m 0)
      (quad4RefNode m 1) = cornerCross p m / 4 := by
  obtain ⟨h0, h1, h2, h3⟩ := quad4_jacobian_corners p
  fin_cases m
  exacts [h0, h1, h2, h3]

/-- `Quad4` on an element of its type, with `J` positive at every point of the rule:
`get_JxW` returns. -/
theorem Quad4JacobianCalculator.getJxW_ok_of_pos {quadKey : KeyType} {rule : QRule ℝ}
    {elem : Elem ℝ} (he : elem.type = quadKey.elemType) (hn : 4 ≤ getNNodes elem.type)
    (hJ : ∀ pt ∈ rule.points, 0 < (Quad4Coefficients.of (elem.node 0) (elem.node 1)
      (elem.node 2) (elem.node 3)).jacobian (pt 0) (pt 1)) :
    ∃ JxW, (Quad4JacobianCalculator.new quadKey rule).getJxW elem = .ok JxW := by
  rw [getJxW_eq (new_wf quadKey rule) he hn]
  dsimp only
  rw [scaleJxW_of_ok _ fun _ _ => rfl, if_pos fun q hq => hJ _ ?_]
  · exact ⟨_, rfl⟩
  · have hq' : q < rule.points.length := by rw [rule.length_eq]; exact hq
    simp only [new, JacobianCalculator.new_quadPoints]
    rw [List.getD_eq_getElem _ _ hq']
    exact List.getElem_mem hq'

/-- **`Quad4` on a convex quadrilateral.** The kernel's `J` is affine in `(ξ, η)` and is a
quarter of the corner cross product at each reference corner; on an element whose first
four nodes make a strictly convex counter-clockwise quadrilateral, and a rule with its
points in `[-1, 1]²`, `get_JxW` returns on an element of its type and never fails its
`J > 0` assertion. -/
theorem quad4_convex_jacobian_pos (qt : QuadratureType) (o : Nat) (rule : QRule ℝ)
    (elem : Elem ℝ) (hconv : ∀ k, 0 < cornerCross (fun n : Fin 4 => elem.node n) k)
    (hrule : ∀ pt ∈ rule.points, -1 ≤ pt 0 ∧ pt 0 ≤ 1 ∧ -1 ≤ pt 1 ∧ pt 1 ≤ 1) :
    (∀ k : Quad4Coefficients ℝ, ∃ a b c : ℝ, ∀ x y,
      k.jacobian x y = a + b * x + c * y) ∧
    (∀ (p : Fin 4 → Point ℝ) (m : Fin 4),
      (Quad4Coefficients.of (p 0) (p 1) (p 2) (p 3)).jacobian (quad4RefNode m 0)
        (quad4RefNode m 1) = cornerCross p m / 4) ∧
    (elem.type = .QUAD4 →
      ∃ JxW, (Quad4JacobianCalculator.new ⟨.QUAD4, qt, o⟩ rule).getJxW elem = .ok JxW) ∧
    (Quad4JacobianCalculator.new ⟨.QUAD4, qt, o⟩ rule).getJxW elem ≠
      .error .nonPositiveJacobian := by
  obtain ⟨h0, h1, h2, h3⟩ := quad4_jacobian_corners fun n : Fin 4 => elem.node n
  have hok : elem.type = .QUAD4 →
      ∃ JxW, (Quad4JacobianCalculator.new ⟨.QUAD4, qt, o⟩ rule).getJxW elem = .ok JxW :=
    fun he => Quad4JacobianCalculator.getJxW_ok_of_pos he (by rw [he]; decide) fun pt hpt =>
      Quad4Coefficients.jacobian_pos _ (h0 ▸ div_pos (hconv 0) four_pos)
        (h1 ▸ div_pos (hconv 1) four_pos) (h2 ▸ div_pos (hconv 2) four_pos)
        (h3 ▸ div_pos (hconv 3) four_pos)
        ⟨(hrule pt hpt).1, (hrule pt hpt).2.1⟩ (hrule pt hpt).2.2
  refine ⟨fun k => ⟨_, _, _, k.jacobian_eq_affine⟩, quad4_jacobian_corner, hok, fun h => ?_⟩
  by_cases he : elem.type = .QUAD4
  · obtain ⟨JxW, hJ⟩ := hok he
    rw [hJ] at h
    cases h
  · rw [Quad4JacobianCalculator.getJxW_of_ne he] at h
    cases h

/-- The unit square is strictly convex and counter-clockwise, and the one-point rule's point
lies in the reference square: `get_JxW` returns on it. -/
theorem quad4_unit_square_jacobian_pos :
    (∀ k, 0 < cornerCross (fun n : Fin 4 => (⟨.QUAD4, [![0, 0, 0], ![1, 0, 0], ![1, 1, 0],
      ![0, 1, 0]], rfl⟩ : Elem ℝ).node n) k) ∧
    ∃ JxW, (Quad4JacobianCalculator.new ⟨.QUAD4, .QGAUSS, 1⟩ ⟨[0], [4], rfl⟩).getJxW
      (⟨.QUAD4, [![0, 0, 0], ![1, 0, 0], ![1, 1, 0], ![0, 1, 0]], rfl⟩ : Elem ℝ) =
        .ok JxW := by
  have hconv : ∀ k, 0 < cornerCross (fun n : Fin 4 => (⟨.QUAD4, [![0, 0, 0], ![1, 0, 0],
      ![1, 1, 0], ![0, 1, 0]], rfl⟩ : Elem ℝ).node n) k := by
    intro k
    fin_cases k <;> simp [cornerCross, Elem.node, Fin.coe_ofNat_eq_mod]
  exact ⟨hconv,
    (quad4_convex_jacobian_pos .QGAUSS 1 ⟨[0], [4], rfl⟩ _ hconv (by simp)).2.2.1 rfl⟩

end IBTK
