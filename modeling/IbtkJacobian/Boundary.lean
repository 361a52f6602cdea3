import IbtkJacobian.Equivalence

/- What a `Quad9` calculator integrates: the area the element's curved boundary encloses.

   1. Each edge of a `QUAD9` element is the quadratic through its two corners and its
      midside node (`quad9Edge`); `∫ x dy − y dx` along it is a cubic integral, in closed
      form `edgeFlux` (`integral_quadraticEdge`).
   2. The determinant `Quad9` forms is a sum over pairs of grid nodes of products of 1-D
      factors `N_a'(ξ) N_b(ξ)` and `N_c'(η) N_d(η)`, each a cubic (`quad9Sums_eq_grid`).
      A tensor-product rule applies the 1-D rule to each factor (`tensorRule_mul`), and a
      1-D rule exact on cubics gives each the moment `∫ N_a' N_b` (`onedRule_edge3`).
   3. The resulting sum over the grid is half the boundary integral; the centre node drops
      out (`quad9_moment_grid_eq_boundary`). Hence the `JxW` any accepted call returns sums
      to `½ ∮ x dy − y dx` (`quad9_jxw_sum_eq_boundary`). -/

namespace IBTK

open Polynomial

/-! The boundary curve. -/

section Curve

variable {R : Type} [LinearOrderedField R]

/-- The quadratic through `a`, `m`, `b` at `t = -1, 0, 1`. -/
def quadraticEdge (a m b : Point R) (t : R) : Point R :=
  fun i => a i * (t * (t - 1) / 2) + m i * (1 - t ^ 2) + b i * (t * (t + 1) / 2)

/-- The nodes along each edge of a `QUAD9` element, corner, midside, corner. -/
def quad9EdgeNodes : Fin 4 → Fin 3 → Nat := ![![0, 4, 1], ![1, 5, 2], ![2, 6, 3], ![3, 7, 0]]

/-- Edge `e` of the element with nodes `node`. -/
def quad9Edge (node : Nat → Point R) (e : Fin 4) : R → Point R :=
  quadraticEdge (node (quad9EdgeNodes e 0)) (node (quad9EdgeNodes e 1)) (node (quad9EdgeNodes e 2))

/-- `∫ x dy − y dx` along the quadratic through `a`, `m`, `b`:
`(4 a × m + 4 m × b − a × b) / 3`. -/
def edgeFlux (a m b : Point R) : R :=
  (4 * (a 0 * m 1 - a 1 * m 0) + 4 * (m 0 * b 1 - m 1 * b 0) - (a 0 * b 1 - a 1 * b 0)) / 3

end Curve

theorem integral_cubic {f : ℝ → ℝ} (c0 c1 c2 c3 : ℝ)
    (hf : ∀ t, f t = c3 * t ^ 3 + c2 * t ^ 2 + c1 * t + c0) :
    ∫ t in (-1:ℝ)..1, f t = 2 * c0 + 2 / 3 * c2 := by
  have hF : ∀ t ∈ Set.uIcc (-1:ℝ) 1, HasDerivAt
      (fun t => c3 * (t ^ 4 / 4) + c2 * (t ^ 3 / 3) + c1 * (t ^ 2 / 2) + c0 * t) (f t) t :=
    fun t _ => by
      rw [hf]
      convert ((((hasDerivAt_pow 4 t).div_const 4).const_mul c3).add
        (((hasDerivAt_pow 3 t).div_const 3).const_mul c2)).add
        (((hasDerivAt_pow 2 t).div_const 2).const_mul c1) |>.add ((hasDerivAt_id' t).const_mul c0)
        using 1
      push_cast
      ring
  rw [intervalIntegral.integral_eq_sub_of_hasDerivAt hF
    (Continuous.intervalIntegrable (by simp only [funext hf]; fun_prop) _ _)]
  ring

theorem hasDerivAt_quadraticEdge (a m b : Point ℝ) (i : Fin 3) (t : ℝ) :
    HasDerivAt (fun s => quadraticEdge a m b s i)
      ((b i - a i) / 2 + 2 * ((a i + b i) / 2 - m i) * t) t := by
  have h : (fun s => quadraticEdge a m b s i) =
      fun s => m i + (b i - a i) / 2 * s + ((a i + b i) / 2 - m i) * s ^ 2 :=
    funext fun s => by simp only [quadraticEdge]; ring
  rw [h]
  convert (((hasDerivAt_id' t).const_mul ((b i - a i) / 2)).const_add (m i)).add
    ((hasDerivAt_pow 2 t).const_mul ((a i + b i) / 2 - m i)) using 1
  push_cast
  ring

/-- With `γ = m + u t + w t²`, `γ × γ' = m × u + 2 (m × w) t + (u × w) t²`. -/
theorem integral_quadraticEdge (a m b : Point ℝ) :
    ∫ t in (-1:ℝ)..1, (quadraticEdge a m b t 0 * deriv (fun s => quadraticEdge a m b s 1) t -
      quadraticEdge a m b t 1 * deriv (fun s => quadraticEdge a m b s 0) t) = edgeFlux a m b := by
  rw [integral_cubic (m 0 * ((b 1 - a 1) / 2) - m 1 * ((b 0 - a 0) / 2))
    (2 * (m 0 * ((a 1 + b 1) / 2 - m 1) - m 1 * ((a 0 + b 0) / 2 - m 0)))
    ((b 0 - a 0) / 2 * ((a 1 + b 1) / 2 - m 1) - (b 1 - a 1) / 2 * ((a 0 + b 0) / 2 - m 0)) 0
    fun t => by
      rw [(hasDerivAt_quadraticEdge a m b 0 t).deriv, (hasDerivAt_quadraticEdge a m b 1 t).deriv]
      simp only [quadraticEdge]
      ring]
  simp only [edgeFlux]
  ring

/-! The `EDGE3` basis as quadratics, and its moments. -/

section Edge3

variable {R : Type} [LinearOrderedField R]

/-- `EDGE3` shape `b` is `α t² + β t + γ`, with `(α, β, γ)` row `b`. -/
def edge3Coeffs : Fin 3 → Fin 3 → R := ![![1 / 2, -1 / 2, 0], ![1 / 2, 1 / 2, 0], ![-1, 0, 1]]

/-- `∫_{-1}^{1} N_a' N_b`, row `a`, column `b`. -/
def edge3DerivMoment : Fin 3 → Fin 3 → R :=
  ![![-1 / 2, 1 / 6, -2 / 3], ![-1 / 6, 1 / 2, 2 / 3], ![2 / 3, -2 / 3, 0]]

theorem edge3Shape_eq_coeffs (b : Fin 3) (t : R) :
    edge3Shape b t = edge3Coeffs b 0 * t ^ 2 + edge3Coeffs b 1 * t + edge3Coeffs b 2 := by
  fin_cases b <;> simp only [edge3Shape, edge3Coeffs, Fin.zero_eta, Fin.mk_one, Fin.reduceFinMk,
    Matrix.cons_val_zero, Matrix.cons_val_one, Matrix.cons_val_two, Matrix.head_cons,
    Matrix.tail_cons] <;> ring

theorem edge3ShapeDeriv_eq_coeffs (a : Fin 3) (t : R) :
    edge3ShapeDeriv a t = 2 * edge3Coeffs a 0 * t + edge3Coeffs a 1 := by
  fin_cases a <;>
    simp only [edge3ShapeDeriv, edge3Coeffs, Fin.zero_eta, Fin.mk_one, Fin.reduceFinMk,
      Matrix.cons_val_zero, Matrix.cons_val_one, Matrix.cons_val_two, Matrix.head_cons,
      Matrix.tail_cons] <;> ring

end Edge3

/-! The 1-D rule and its tensor product. -/

/-- The 1-D rule with points `pt` and weights `v`, `n` of each, applied to `f`. -/
def onedRule (n : Nat) (v pt : Nat → ℝ) (f : ℝ → ℝ) : ℝ :=
  ∑ i ∈ Finset.range n, v i * f (pt i)

/-- Its tensor product, `Σ_j Σ_i v_i v_j F(p_i, p_j)`. -/
def tensorRule (n : Nat) (v pt : Nat → ℝ) (F : ℝ → ℝ → ℝ) : ℝ :=
  ∑ j ∈ Finset.range n, ∑ i ∈ Finset.range n, v i * v j * F (pt i) (pt j)

/-- The 1-D rule integrates every polynomial of degree at most 3 over `[-1, 1]` exactly. -/
def CubicExact (n : Nat) (v pt : Nat → ℝ) : Prop :=
  ∀ f : Polynomial ℝ, f.natDegree ≤ 3 →
    ∑ i ∈ Finset.range n, v i * f.eval (pt i) = ∫ t in (-1:ℝ)..1, f.eval t

section Rule

variable {n : Nat} {v pt : Nat → ℝ}

theorem tensorRule_sum {ι : Type} (s : Finset ι) (F : ι → ℝ → ℝ → ℝ) :
    tensorRule n v pt (fun ξ η => ∑ k ∈ s, F k ξ η) =
      ∑ k ∈ s, tensorRule n v pt (F k) := by
  simp only [tensorRule, Finset.mul_sum]
  calc _ = ∑ j ∈ Finset.range n, ∑ k ∈ s, ∑ i ∈ Finset.range n,
          v i * v j * F k (pt i) (pt j) :=
        Finset.sum_congr rfl fun _ _ => Finset.sum_comm
    _ = _ := Finset.sum_comm

theorem tensorRule_sub (F G : ℝ → ℝ → ℝ) :
    tensorRule n v pt (fun ξ η => F ξ η - G ξ η) =
      tensorRule n v pt F - tensorRule n v pt G := by
  simp only [tensorRule, mul_sub, Finset.sum_sub_distrib]

theorem tensorRule_const_mul (c : ℝ) (F : ℝ → ℝ → ℝ) :
    tensorRule n v pt (fun ξ η => c * F ξ η) = c * tensorRule n v pt F := by
  simp only [tensorRule, Finset.mul_sum]
  exact Finset.sum_congr rfl fun _ _ => Finset.sum_congr rfl fun _ _ => by ring

theorem tensorRule_mul (f g : ℝ → ℝ) :
    tensorRule n v pt (fun ξ η => f ξ * g η) = onedRule n v pt f * onedRule n v pt g := by
  rw [tensorRule, onedRule, onedRule, Finset.sum_mul_sum, Finset.sum_comm]
  exact Finset.sum_congr rfl fun _ _ => Finset.sum_congr rfl fun _ _ => by ring

theorem onedRule_cubic (hexact : CubicExact n v pt) {f : ℝ → ℝ} (c0 c1 c2 c3 : ℝ)
    (hf : ∀ t, f t = c3 * t ^ 3 + c2 * t ^ 2 + c1 * t + c0) :
    onedRule n v pt f = 2 * c0 + 2 / 3 * c2 := by
  have h := hexact (C c3 * X ^ 3 + C c2 * X ^ 2 + C c1 * X + C c0) natDegree_cubic_le
  simp only [eval_add, eval_mul, eval_C, eval_pow, eval_X, ← hf] at h
  rw [onedRule, h, integral_cubic c0 c1 c2 c3 hf]

/-- A 1-D rule exact on cubics computes the `EDGE3` moments `∫ N_a' N_b`. -/
theorem onedRule_edge3 (hexact : CubicExact n v pt) (a b : Fin 3) :
    onedRule n v pt (fun t => edge3ShapeDeriv a t * edge3Shape b t) = edge3DerivMoment a b := by
  rw [onedRule_cubic hexact (edge3Coeffs a 1 * edge3Coeffs b 2)
    (2 * edge3Coeffs a 0 * edge3Coeffs b 2 + edge3Coeffs a 1 * edge3Coeffs b 1)
    (2 * edge3Coeffs a 0 * edge3Coeffs b 1 + edge3Coeffs a 1 * edge3Coeffs b 0)
    (2 * edge3Coeffs a 0 * edge3Coeffs b 0) fun t => by
      rw [edge3ShapeDeriv_eq_coeffs, edge3Shape_eq_coeffs]; ring]
  fin_cases a <;> fin_cases b <;>
    simp only [edge3Coeffs, edge3DerivMoment, Fin.zero_eta, Fin.mk_one, Fin.reduceFinMk,
      Matrix.cons_val_zero, Matrix.cons_val_one, Matrix.cons_val_two, Matrix.head_cons,
      Matrix.tail_cons] <;> norm_num

end Rule

/-! The `QUAD9` determinant on the 3×3 grid of `EDGE3` nodes. -/

/-- The `QUAD9` node at 1-D nodes `(a, b)`: the inverse of `(quad9I0, quad9I1)`. -/
def quad9Node : Fin 3 → Fin 3 → Nat := ![![0, 3, 7], ![1, 2, 5], ![4, 6, 8]]

theorem quad9_sum_node {M : Type} [AddCommMonoid M] (F : Nat → Fin 3 → Fin 3 → M) :
    ∑ n : Fin 9, F n (quad9I0 n) (quad9I1 n) = ∑ a, ∑ b, F (quad9Node a b) a b := by
  simp [Fin.sum_univ_succ, quad9Node, quad9I0, quad9I1]
  abel

theorem quad9Sums_eq_grid (X : Nat → Point ℝ) (ξ η : ℝ) :
    quad9Sums X ξ η = ∑ a, ∑ a', ∑ b, ∑ b', X (quad9Node a b) 0 * X (quad9Node a' b') 1 *
      (edge3ShapeDeriv a ξ * edge3Shape a' ξ * (edge3ShapeDeriv b' η * edge3Shape b η) -
        edge3ShapeDeriv a' ξ * edge3Shape a ξ * (edge3ShapeDeriv b η * edge3Shape b' η)) := by
  have hξ : ∀ c, ∑ n : Fin 9, X n c * quad9ShapeDeriv n 0 ![ξ, η, 0] =
      ∑ a, ∑ b, X (quad9Node a b) c * (edge3ShapeDeriv a ξ * edge3Shape b η) := fun c =>
    quad9_sum_node fun n a b => X n c * (edge3ShapeDeriv a ξ * edge3Shape b η)
  have hη : ∀ c, ∑ n : Fin 9, X n c * quad9ShapeDeriv n 1 ![ξ, η, 0] =
      ∑ a, ∑ b, X (quad9Node a b) c * (edge3Shape a ξ * edge3ShapeDeriv b η) := fun c =>
    quad9_sum_node fun n a b => X n c * (edge3Shape a ξ * edge3ShapeDeriv b η)
  rw [quad9Sums, hξ, hξ, hη, hη]
  simp only [Finset.sum_mul_sum, ← Finset.sum_sub_distrib]
  refine Finset.sum_congr rfl fun a _ => Finset.sum_congr rfl fun a' _ =>
    Finset.sum_congr rfl fun b _ => Finset.sum_congr rfl fun b' _ => by ring

theorem tensorRule_quad9Sums {n : Nat} {v pt : Nat → ℝ} (hexact : CubicExact n v pt)
    (X : Nat → Point ℝ) :
    tensorRule n v pt (quad9Sums X) =
      ∑ a, ∑ a', ∑ b, ∑ b', X (quad9Node a b) 0 * X (quad9Node a' b') 1 *
        (edge3DerivMoment a a' * edge3DerivMoment b' b -
          edge3DerivMoment a' a * edge3DerivMoment b b') := by
  rw [show quad9Sums X = _ from funext fun ξ => funext fun η => quad9Sums_eq_grid X ξ η]
  simp only [tensorRule_sum, tensorRule_const_mul, tensorRule_sub, tensorRule_mul,
    onedRule_edge3 hexact]

theorem quad9_moment_grid_eq_boundary (X : Nat → Point ℝ) :
    ∑ a, ∑ a', ∑ b, ∑ b', X (quad9Node a b) 0 * X (quad9Node a' b') 1 *
      (edge3DerivMoment a a' * edge3DerivMoment b' b -
        edge3DerivMoment a' a * edge3DerivMoment b b') =
    1 / 2 * ∑ e : Fin 4, edgeFlux (X (quad9EdgeNodes e 0)) (X (quad9EdgeNodes e 1))
      (X (quad9EdgeNodes e 2)) := by
  simp only [Fin.sum_univ_three, Fin.sum_univ_four, edge3DerivMoment, quad9Node, quad9EdgeNodes,
    edgeFlux, Matrix.cons_val_zero, Matrix.cons_val_one, Matrix.cons_val_two, Matrix.head_cons,
    Matrix.cons_val_three, Matrix.tail_cons]
  ring

/-! The calculator. -/

theorem sum_mapIdx_mul : ∀ (ws : List ℝ) (f : Nat → ℝ),
    (ws.mapIdx fun q w => w * f q).sum = ∑ q ∈ Finset.range ws.length, ws.getD q 0 * f q
  | [], _ => by simp
  | w :: ws, f => by
    rw [List.mapIdx_cons, List.sum_cons, sum_mapIdx_mul ws fun q => f (q + 1), List.length_cons,
      Finset.sum_range_succ', add_comm]
    simp

theorem sum_range_mul_windows {M : Type} [AddCommMonoid M] (F : Nat → M) (c n : Nat) :
    ∑ q ∈ Finset.range (c * n), F q =
      ∑ j ∈ Finset.range c, ∑ i ∈ Finset.range n, F (j * n + i) := by
  induction c with
  | zero => simp
  | succ c ih => rw [Nat.succ_mul, Finset.sum_range_add, ih, Finset.sum_range_succ]

/-- Whatever `JxW` an accepted call returns, on a rule with product weights, sums to the
tensor rule of the determinant. -/
theorem quad9_jxw_sum_eq_tensorRule {qt : QuadratureType} {o : Nat} {rule : QRule ℝ}
    {c9 : Quad9JacobianCalculator ℝ}
    (h9 : Quad9JacobianCalculator.new ⟨.QUAD9, qt, o⟩ rule = .ok c9) {v : Nat → ℝ}
    (hw : ∀ i < c9.nOnedQPoints, ∀ j < c9.nOnedQPoints,
      rule.weights.getD (j * c9.nOnedQPoints + i) 0 = v i * v j)
    {elem : Elem ℝ} {JxW : List ℝ} (h : c9.getJxW elem = .ok JxW) :
    JxW.sum = tensorRule c9.nOnedQPoints v (onedPoint rule.points) (quad9Sums elem.node) := by
  have hc := Quad9JacobianCalculator.new_wf h9
  have h9k : c9.toJacobianCalculator = JacobianCalculator.new ⟨.QUAD9, qt, o⟩ rule := by
    obtain ⟨-, -, rfl⟩ := Quad9JacobianCalculator.new_eq_ok.mp h9; rfl
  have hW : c9.quadWeights = rule.weights := by rw [h9k]; rfl
  by_cases he : elem.type = .QUAD9
  swap
  · rw [Quad9JacobianCalculator.getJxW_of_ne (by rw [h9k]; exact he)] at h
    cases h
  rw [Quad9JacobianCalculator.getJxW_eq hc (by rw [h9k]; exact he) (by rw [he]; decide),
    scaleJxW_of_ok (fun q => quad9Sums elem.node (onedPoint rule.points (q % c9.nOnedQPoints))
      (onedPoint rule.points (q / c9.nOnedQPoints))) fun q hq => by
      rw [← Quad9JacobianCalculator.jacobianAt_of_lt hc _ _ hq,
        quad9_jacobianAt_eq h9 _ (by rw [rule.length_eq, ← hW]; exact hq)]] at h
  split_ifs at h
  cases h
  rw [sum_mapIdx_mul, ← hc.square, sum_range_mul_windows, hW]
  refine Finset.sum_congr rfl fun j hj => Finset.sum_congr rfl fun i hi => ?_
  rw [Finset.mem_range] at hi hj
  rw [hw i hi j hj, Nat.add_comm (j * _) i, Nat.add_mul_mod_self_right, Nat.mod_eq_of_lt hi,
    Nat.add_mul_div_right _ _ (by omega), Nat.div_eq_of_lt hi, Nat.zero_add]

/-- **`Quad9` integrates the area its boundary encloses.** For a rule the constructor
accepts whose weights are `v_i v_j` for a 1-D rule exact on cubics, whatever `JxW` a call
returns sums to `½ ∮ x dy − y dx` along the four quadratic edges; so it does not depend on
the centre node. -/
theorem quad9_jxw_sum_eq_boundary (qt : QuadratureType) (o : Nat) (rule : QRule ℝ)
    (c9 : Quad9JacobianCalculator ℝ)
    (h9 : Quad9JacobianCalculator.new ⟨.QUAD9, qt, o⟩ rule = .ok c9) (v : Nat → ℝ)
    (hw : ∀ i < c9.nOnedQPoints, ∀ j < c9.nOnedQPoints,
      rule.weights.getD (j * c9.nOnedQPoints + i) 0 = v i * v j)
    (hexact : ∀ f : Polynomial ℝ, f.natDegree ≤ 3 →
      ∑ i ∈ Finset.range c9.nOnedQPoints, v i * f.eval (onedPoint rule.points i) =
        ∫ t in (-1:ℝ)..1, f.eval t) :
    (∀ (elem : Elem ℝ) (JxW : List ℝ), c9.getJxW elem = .ok JxW →
      JxW.sum = 1 / 2 * ∑ e : Fin 4, ∫ t in (-1:ℝ)..1,
        (quad9Edge elem.node e t 0 * deriv (fun s => quad9Edge elem.node e s 1) t -
          quad9Edge elem.node e t 1 * deriv (fun s => quad9Edge elem.node e s 0) t)) ∧
    ∀ (elem elem' : Elem ℝ) (JxW JxW' : List ℝ),
      (∀ k, k ≠ 8 → elem.node k = elem'.node k) →
      c9.getJxW elem = .ok JxW → c9.getJxW elem' = .ok JxW' → JxW.sum = JxW'.sum := by
  have hsum : ∀ (elem : Elem ℝ) (JxW : List ℝ), c9.getJxW elem = .ok JxW →
      JxW.sum = 1 / 2 * ∑ e : Fin 4, edgeFlux (elem.node (quad9EdgeNodes e 0))
        (elem.node (quad9EdgeNodes e 1)) (elem.node (quad9EdgeNodes e 2)) := fun elem JxW h => by
    rw [quad9_jxw_sum_eq_tensorRule h9 hw h, tensorRule_quad9Sums hexact,
      quad9_moment_grid_eq_boundary]
  refine ⟨fun elem JxW h => ?_, fun elem elem' JxW JxW' hnode h h' => ?_⟩
  · rw [hsum elem JxW h]
    exact congrArg _ (Finset.sum_congr rfl fun e _ => (integral_quadraticEdge _ _ _).symm)
  · have hE : ∀ e k, quad9EdgeNodes e k ≠ 8 := by decide
    rw [hsum elem JxW h, hsum elem' JxW' h']
    simp only [hnode _ (hE _ _)]

/-- The three-point Gauss-Lobatto rule, Simpson's `(1/3, 4/3, 1/3)` at `-1, 0, 1`, as the 3×3
tensor-product rule. -/
def simpsonQuadRule {R : Type} [LinearOrderedField R] : QRule R :=
  ⟨[![-1, -1, 0], ![0, -1, 0], ![1, -1, 0], ![-1, 0, 0], ![0, 0, 0], ![1, 0, 0], ![-1, 1, 0],
    ![0, 1, 0], ![1, 1, 0]],
    [1 / 9, 4 / 9, 1 / 9, 4 / 9, 16 / 9, 4 / 9, 1 / 9, 4 / 9, 1 / 9], rfl⟩

theorem simpsonQuadRule_new (quadKey : KeyType) :
    ∃ c9 : Quad9JacobianCalculator ℝ,
      Quad9JacobianCalculator.new quadKey simpsonQuadRule = .ok c9 ∧ c9.nOnedQPoints = 3 := by
  have h3 : roundSqrt (simpsonQuadRule (R := ℝ)).points.length = 3 := roundSqrt_mul_self 3
  refine ⟨_, Quad9JacobianCalculator.new_eq_ok.mpr ⟨by rw [h3]; rfl, fun j hj i hi => ?_, rfl⟩,
    h3⟩
  rw [h3] at hj hi ⊢
  interval_cases j <;> interval_cases i <;> rfl

theorem simpson_cubicExact :
    CubicExact 3 (fun i => [1 / 3, 4 / 3, 1 / 3].getD i 0)
      (onedPoint (simpsonQuadRule (R := ℝ)).points) :=
  fun f hf => by
    have hc : ∀ t,
        f.eval t = f.coeff 3 * t ^ 3 + f.coeff 2 * t ^ 2 + f.coeff 1 * t + f.coeff 0 := fun t => by
      rw [eval_eq_sum_range' (show f.natDegree < 4 by omega)]
      simp only [Finset.sum_range_succ, Finset.sum_range_zero]
      ring
    rw [integral_cubic _ _ _ _ hc]
    simp only [Finset.sum_range_succ, Finset.sum_range_zero, hc, onedPoint, simpsonQuadRule,
      List.getD_cons_succ, List.getD_cons_zero, Matrix.cons_val_zero]
    ring

/-- On the tensor product of the three-point Gauss-Lobatto rule, with `v = (1/3, 4/3, 1/3)`:
the reference `QUAD9` is accepted, its `JxW` are the weights, and they sum to its area `4`. -/
theorem quad9_simpson_jxw_sum_eq_boundary :
    ∃ c9 : Quad9JacobianCalculator ℝ,
      Quad9JacobianCalculator.new ⟨.QUAD9, .QGAUSS_LOBATTO, 3⟩ simpsonQuadRule = .ok c9 ∧
      c9.getJxW quad9RefElem = .ok simpsonQuadRule.weights ∧
      simpsonQuadRule.weights.sum = (4 : ℝ) ∧
      ∀ (elem : Elem ℝ) (JxW : List ℝ), c9.getJxW elem = .ok JxW →
        JxW.sum = 1 / 2 * ∑ e : Fin 4, ∫ t in (-1:ℝ)..1,
          (quad9Edge elem.node e t 0 * deriv (fun s => quad9Edge elem.node e s 1) t -
            quad9Edge elem.node e t 1 * deriv (fun s => quad9Edge elem.node e s 0) t) := by
  obtain ⟨c9, h9, hn⟩ := simpsonQuadRule_new ⟨.QUAD9, .QGAUSS_LOBATTO, 3⟩
  refine ⟨c9, h9, Quad9JacobianCalculator.getJxW_quad9RefElem h9,
    by norm_num [simpsonQuadRule], (quad9_jxw_sum_eq_boundary .QGAUSS_LOBATTO 3 _ _ h9
    (fun i => [1 / 3, 4 / 3, 1 / 3].getD i 0) (fun i hi j hj => ?_) fun f hf => ?_).1⟩
  · rw [hn] at hi hj ⊢
    interval_cases j <;> interval_cases i <;>
      simp only [simpsonQuadRule, List.getD_cons_succ, List.getD_cons_zero, Nat.reduceMul,
        Nat.reduceAdd] <;> norm_num
  · rw [hn]
    exact simpson_cubicExact f hf

end IBTK
