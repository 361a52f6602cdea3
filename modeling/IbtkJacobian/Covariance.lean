import IbtkJacobian.Equivalence
import IbtkJacobian.Manifold

/- Affine covariance. Moving every node by `x ↦ A x + b` multiplies the `J` of every
   square calculator at every quadrature point by `det A`, and that of a manifold
   instantiation by `s^dim` when `A = s R` is a scaled rotation. Every `J` is a
   determinant of the matrix `Σ_n x_n ⊗ D_n` of the node coordinates against a table of
   shape derivatives (`nodeSum`), and `nodeSum_affine` moves `A` out of it; the translation
   `b` drops out because every table sums to zero over the nodes, the one fact the proof
   takes from the basis.

   On the calculators (`jacobian_affine_covariant`), for `det A > 0` the returned `JxW` is
   scaled by `det A` and acceptance is unchanged. -/

namespace IBTK

open Matrix

section Field

variable {R : Type} [LinearOrderedField R] {d : Nat}

/-- `x ↦ A x + b` on the first `d` coordinates of a point; the others are kept. -/
def Point.affine (A : Matrix (Fin d) (Fin d) R) (b : Fin d → R) (p : Point R) : Point R :=
  fun i => if h : i.val < d then ∑ k, A ⟨i, h⟩ k * Point.coord p k + b ⟨i, h⟩ else p i

/-- The element with every node moved by `x ↦ A x + b`. -/
def Elem.affine (A : Matrix (Fin d) (Fin d) R) (b : Fin d → R) (e : Elem R) : Elem R where
  type := e.type
  nodes := e.nodes.map (Point.affine A b)
  length_nodes := by rw [List.length_map, e.length_nodes]

/-- `Σ_n x_n ⊗ D_n`: node coordinates against a table of shape derivatives. -/
def nodeSum {N e : Nat} (x : Fin N → Point R) (D : Fin N → Fin e → R) :
    Matrix (Fin d) (Fin e) R :=
  Matrix.of fun i j => ∑ n, Point.coord (x n) i * D n j

@[simp] theorem Elem.affine_type (A : Matrix (Fin d) (Fin d) R) (b : Fin d → R) (e : Elem R) :
    (e.affine A b).type = e.type := rfl

theorem coord_affine (hd : d ≤ 3) (A : Matrix (Fin d) (Fin d) R) (b : Fin d → R) (p : Point R)
    (i : Fin d) : Point.coord (Point.affine A b p) i = ∑ k, A i k * Point.coord p k + b i := by
  simp [Point.coord, Point.affine, show (i : Nat) < 3 by omega]

theorem Elem.node_affine (A : Matrix (Fin d) (Fin d) R) (b : Fin d → R) (e : Elem R) {n : Nat}
    (hn : n < e.nodes.length) : (e.affine A b).node n = Point.affine A b (e.node n) := by
  simp [Elem.node, Elem.affine, hn]

/-- **`A` moves out of `Σ_n x_n ⊗ D_n`, and `b` drops out when the table sums to zero.** -/
theorem nodeSum_affine {N e : Nat} (hd : d ≤ 3) (A : Matrix (Fin d) (Fin d) R) (b : Fin d → R)
    (x : Fin N → Point R) {D : Fin N → Fin e → R} (hD : ∀ j, ∑ n, D n j = 0) :
    (nodeSum (fun n => Point.affine A b (x n)) D : Matrix (Fin d) (Fin e) R) =
      A * nodeSum x D := by
  ext i j
  simp only [nodeSum, Matrix.of_apply, Matrix.mul_apply, coord_affine hd, add_mul,
    Finset.sum_add_distrib, Finset.sum_mul, Finset.mul_sum]
  rw [Finset.sum_comm, ← Finset.mul_sum, hD, mul_zero, add_zero]
  simp only [mul_assoc]

theorem det_nodeSum_affine {N : Nat} (hd : d ≤ 3) (A : Matrix (Fin d) (Fin d) R)
    (b : Fin d → R) (x : Fin N → Point R) {D : Fin N → Fin d → R} (hD : ∀ j, ∑ n, D n j = 0) :
    (nodeSum (fun n => Point.affine A b (x n)) D : Matrix (Fin d) (Fin d) R).det =
      A.det * (nodeSum x D : Matrix (Fin d) (Fin d) R).det := by
  rw [nodeSum_affine hd A b x hD, Matrix.det_mul]

theorem det_nodeSum_two {N : Nat} (x : Fin N → Point R) (D : Fin N → Fin 2 → R) :
    (nodeSum x D : Matrix (Fin 2) (Fin 2) R).det =
      (∑ n, x n 0 * D n 0) * (∑ n, x n 1 * D n 1) -
        (∑ n, x n 0 * D n 1) * (∑ n, x n 1 * D n 0) := by
  simp [nodeSum, Matrix.det_fin_two]

/-! The kernels' `J` as determinants of `nodeSum`. -/

theorem tri3_jacobian_eq_nodeSum (x : Fin 3 → Point R) :
    Tri3JacobianCalculator.jacobian (x 0) (x 1) (x 2) =
      (nodeSum x fun n j => tri3ShapeDeriv n j 0 : Matrix (Fin 2) (Fin 2) R).det := by
  rw [det_nodeSum_two]
  simp only [tri3_sum_shapeDeriv]
  rfl

theorem tet4_jacobian_eq_nodeSum (x : Fin 4 → Point R) :
    Tet4JacobianCalculator.jacobian (x 0) (x 1) (x 2) (x 3) =
      (nodeSum x fun n j => tet4ShapeDeriv n j 0 : Matrix (Fin 3) (Fin 3) R).det := by
  rw [tet4_jacobian_eq_det]
  congr 1
  ext i j
  simp only [nodeSum, Matrix.of_apply, tet4_sum_shapeDeriv, Point.coord_fin]
  fin_cases j <;> rfl

theorem quad4_jacobian_eq_nodeSum (p : Fin 4 → Point R) (ξ η : R) :
    (Quad4Coefficients.of (p 0) (p 1) (p 2) (p 3)).jacobian ξ η =
      (nodeSum p fun n j => quad4ShapeDeriv n j ![ξ, η, 0] : Matrix (Fin 2) (Fin 2) R).det := by
  rw [det_nodeSum_two, ← quad4_jacobian_eq]
  rfl

theorem quad9Sums_eq_nodeSum (X : Nat → Point R) (ξ η : R) :
    quad9Sums X ξ η = (nodeSum (fun n : Fin 9 => X n) fun n j => quad9ShapeDeriv n j ![ξ, η, 0] :
      Matrix (Fin 2) (Fin 2) R).det := by
  rw [det_nodeSum_two]
  rfl

/-! Each kernel's `J` at moved nodes. -/

section Kernels

variable (A : Matrix (Fin d) (Fin d) R) (b : Fin d → R)

theorem tri3_jacobian_affine (hd : d = 2) (p0 p1 p2 : Point R) :
    Tri3JacobianCalculator.jacobian (Point.affine A b p0) (Point.affine A b p1)
        (Point.affine A b p2) = A.det * Tri3JacobianCalculator.jacobian p0 p1 p2 := by
  subst hd
  calc _ = (nodeSum (fun n => Point.affine A b (![p0, p1, p2] n)) fun n j => tri3ShapeDeriv n j 0 :
          Matrix (Fin 2) (Fin 2) R).det := tri3_jacobian_eq_nodeSum _
    _ = _ := by
      rw [det_nodeSum_affine (by norm_num) A b _ fun j => tri3ShapeDeriv_sum j 0,
        ← tri3_jacobian_eq_nodeSum]
      rfl

theorem tet4_jacobian_affine (hd : d = 3) (p0 p1 p2 p3 : Point R) :
    Tet4JacobianCalculator.jacobian (Point.affine A b p0) (Point.affine A b p1)
        (Point.affine A b p2) (Point.affine A b p3) =
      A.det * Tet4JacobianCalculator.jacobian p0 p1 p2 p3 := by
  subst hd
  calc _ = (nodeSum (fun n => Point.affine A b (![p0, p1, p2, p3] n))
          fun n j => tet4ShapeDeriv n j 0 : Matrix (Fin 3) (Fin 3) R).det :=
        tet4_jacobian_eq_nodeSum _
    _ = _ := by
      rw [det_nodeSum_affine le_rfl A b _ fun j => tet4ShapeDeriv_sum j 0,
        ← tet4_jacobian_eq_nodeSum]
      rfl

theorem quad4_jacobian_affine (hd : d = 2) (p0 p1 p2 p3 : Point R) (ξ η : R) :
    (Quad4Coefficients.of (Point.affine A b p0) (Point.affine A b p1)
        (Point.affine A b p2) (Point.affine A b p3)).jacobian ξ η =
      A.det * (Quad4Coefficients.of p0 p1 p2 p3).jacobian ξ η := by
  subst hd
  calc _ = (nodeSum (fun n => Point.affine A b (![p0, p1, p2, p3] n))
          fun n j => quad4ShapeDeriv n j ![ξ, η, 0] : Matrix (Fin 2) (Fin 2) R).det :=
        quad4_jacobian_eq_nodeSum _ ξ η
    _ = _ := by
      rw [det_nodeSum_affine (by norm_num) A b _ fun j => quad4ShapeDeriv_sum j _,
        ← quad4_jacobian_eq_nodeSum]
      rfl

theorem quad9Sums_affine (hd : d = 2) (X : Nat → Point R) (ξ η : R) :
    quad9Sums (fun n => Point.affine A b (X n)) ξ η = A.det * quad9Sums X ξ η := by
  subst hd
  rw [quad9Sums_eq_nodeSum, quad9Sums_eq_nodeSum,
    det_nodeSum_affine (by norm_num) A b (fun n : Fin 9 => X n) fun j => quad9ShapeDeriv_sum j _]

end Kernels

/-! The generic path's contravariant matrix at moved nodes. -/

namespace LagrangeJacobianCalculator

variable {dim s : Nat} {quadKey : KeyType} {rule : QRule R}
  {shapeDeriv : Fin (getNNodes quadKey.elemType) → Fin dim → Point R → R}
  {c : LagrangeJacobianCalculator R dim s}

theorem table_sum_of_new (h : new quadKey rule shapeDeriv = .ok c)
    (hsum : ∀ j p, ∑ n, shapeDeriv n j p = 0) {q : Nat} (hq : q < rule.points.length)
    (j : Fin dim) : ∑ n : Fin c.nNodes, c.table n q j = 0 := by
  unfold new at h
  split_ifs at h
  cases h
  simpa [table, List.getElem?_eq_getElem hq] using hsum j (rule.points.getD q 0)

theorem contravariant_affine (h : new quadKey rule shapeDeriv = .ok c)
    (hsum : ∀ j p, ∑ n, shapeDeriv n j p = 0) (hs : s ≤ 3) (A : Matrix (Fin s) (Fin s) R)
    (b : Fin s → R) {elem : Elem R} (he : elem.type = quadKey.elemType) {q : Nat}
    (hq : q < rule.points.length) :
    c.contravariant (elem.affine A b) q = A * c.contravariant elem q := by
  have hN : c.nNodes = elem.nodes.length := by
    rw [(new_wf h).nNodes_eq, new_toJacobianCalculator h, elem.length_nodes, he]; rfl
  show nodeSum (fun n : Fin c.nNodes => (elem.affine A b).node n) (fun n => c.table n q) =
    A * nodeSum (fun n : Fin c.nNodes => elem.node n) (fun n => c.table n q)
  rw [← nodeSum_affine hs A b _ (table_sum_of_new h hsum hq)]
  exact congrArg (fun x => (nodeSum x fun n => c.table n q : Matrix (Fin s) (Fin dim) R))
    (funext fun n => Elem.node_affine A b elem (hN ▸ n.isLt))

/-- A per-point factor `f > 0` on `J` is a factor `f` on the returned `JxW`. -/
theorem getJxW_of_jacobian_mul (h : new quadKey rule shapeDeriv = .ok c) (sqrt : R → R)
    (hs : s ≤ 3) {f : R} (hf : 0 < f) {elem elem' : Elem R} (htype : elem'.type = elem.type)
    (hJ : elem.type = quadKey.elemType → ∀ q < rule.points.length,
      jacobianOf sqrt (c.contravariant elem' q) =
        (f * ·) <$> jacobianOf sqrt (c.contravariant elem q)) :
    c.getJxW sqrt elem' = List.map (· * f) <$> c.getJxW sqrt elem := by
  rw [getJxW_of_new h hs, getJxW_of_new h hs, htype]
  split_ifs with he
  · rw [← scaleJxW_mul_left hf]
    exact scaleJxW_congr fun q hq => hJ he _ (by rw [rule.length_eq]; omega)
  · rfl

end LagrangeJacobianCalculator

theorem constJxW_mul_left {a J : R} (ha : 0 < a) (ws : List R) :
    (if 0 < a * J then .ok (ws.map (· * (a * J))) else .error .nonPositiveJacobian :
      Except JacobianError (List R)) =
      List.map (· * a) <$>
        (if 0 < J then .ok (ws.map (· * J)) else .error .nonPositiveJacobian) := by
  by_cases hJ : 0 < J
  · rw [if_pos (mul_pos ha hJ), if_pos hJ, map_ok, List.map_map]
    congr 2
    funext w
    simp only [Function.comp, mul_comm a, mul_assoc]
  · rw [if_neg fun h => hJ (pos_of_mul_pos_right h ha.le), if_neg hJ]
    rfl

/-! The specialised calculators on moved elements. -/

section Calculators

variable {qt : QuadratureType} {o : Nat} {rule : QRule R}

theorem tri3_getJxW_affine (A : Matrix (Fin 2) (Fin 2) R) (b : Fin 2 → R) (hA : 0 < A.det)
    (elem : Elem R) :
    (Tri3JacobianCalculator.new ⟨.TRI3, qt, o⟩ rule).getJxW (elem.affine A b) =
      List.map (· * A.det) <$> (Tri3JacobianCalculator.new ⟨.TRI3, qt, o⟩ rule).getJxW elem := by
  by_cases he : elem.type = .TRI3
  · have hn : ∀ n < 3, n < elem.nodes.length := by rw [elem.length_nodes, he]; exact fun _ h => h
    rw [Tri3JacobianCalculator.getJxW_eq (Tri3JacobianCalculator.new_wf ⟨.TRI3, qt, o⟩ rule)
        (show (elem.affine A b).type = _ from he) (by rw [Elem.affine_type, he]; decide),
      Tri3JacobianCalculator.getJxW_eq (Tri3JacobianCalculator.new_wf ⟨.TRI3, qt, o⟩ rule) he
        (by rw [he]; decide),
      Elem.node_affine A b elem (hn 0 (by norm_num)),
      Elem.node_affine A b elem (hn 1 (by norm_num)),
      Elem.node_affine A b elem (hn 2 (by norm_num)), tri3_jacobian_affine A b rfl]
    exact constJxW_mul_left hA _
  · rw [Tri3JacobianCalculator.getJxW_of_ne (c := Tri3JacobianCalculator.new ⟨.TRI3, qt, o⟩ rule)
        (show (elem.affine A b).type ≠ _ from he),
      Tri3JacobianCalculator.getJxW_of_ne (c := Tri3JacobianCalculator.new ⟨.TRI3, qt, o⟩ rule) he]
    rfl

theorem tet4_getJxW_affine (A : Matrix (Fin 3) (Fin 3) R) (b : Fin 3 → R) (hA : 0 < A.det)
    (elem : Elem R) :
    (Tet4JacobianCalculator.new ⟨.TET4, qt, o⟩ rule).getJxW (elem.affine A b) =
      List.map (· * A.det) <$> (Tet4JacobianCalculator.new ⟨.TET4, qt, o⟩ rule).getJxW elem := by
  by_cases he : elem.type = .TET4
  · have hn : ∀ n < 4, n < elem.nodes.length := by rw [elem.length_nodes, he]; exact fun _ h => h
    rw [Tet4JacobianCalculator.getJxW_eq (Tet4JacobianCalculator.new_wf ⟨.TET4, qt, o⟩ rule)
        (show (elem.affine A b).type = _ from he) (by rw [Elem.affine_type, he]; decide),
      Tet4JacobianCalculator.getJxW_eq (Tet4JacobianCalculator.new_wf ⟨.TET4, qt, o⟩ rule) he
        (by rw [he]; decide),
      Elem.node_affine A b elem (hn 0 (by norm_num)),
      Elem.node_affine A b elem (hn 1 (by norm_num)),
      Elem.node_affine A b elem (hn 2 (by norm_num)),
      Elem.node_affine A b elem (hn 3 (by norm_num)),
      tet4_jacobian_affine A b rfl]
    exact constJxW_mul_left hA _
  · rw [Tet4JacobianCalculator.getJxW_of_ne (c := Tet4JacobianCalculator.new ⟨.TET4, qt, o⟩ rule)
        (show (elem.affine A b).type ≠ _ from he),
      Tet4JacobianCalculator.getJxW_of_ne (c := Tet4JacobianCalculator.new ⟨.TET4, qt, o⟩ rule) he]
    rfl

theorem quad4_getJxW_affine (A : Matrix (Fin 2) (Fin 2) R) (b : Fin 2 → R) (hA : 0 < A.det)
    (elem : Elem R) :
    (Quad4JacobianCalculator.new ⟨.QUAD4, qt, o⟩ rule).getJxW (elem.affine A b) =
      List.map (· * A.det) <$> (Quad4JacobianCalculator.new ⟨.QUAD4, qt, o⟩ rule).getJxW elem := by
  by_cases he : elem.type = .QUAD4
  · have hn : ∀ n < 4, n < elem.nodes.length := by rw [elem.length_nodes, he]; exact fun _ h => h
    rw [Quad4JacobianCalculator.getJxW_eq (Quad4JacobianCalculator.new_wf ⟨.QUAD4, qt, o⟩ rule)
        (show (elem.affine A b).type = _ from he) (by rw [Elem.affine_type, he]; decide),
      Quad4JacobianCalculator.getJxW_eq (Quad4JacobianCalculator.new_wf ⟨.QUAD4, qt, o⟩ rule) he
        (by rw [he]; decide),
      Elem.node_affine A b elem (hn 0 (by norm_num)),
      Elem.node_affine A b elem (hn 1 (by norm_num)),
      Elem.node_affine A b elem (hn 2 (by norm_num)),
      Elem.node_affine A b elem (hn 3 (by norm_num))]
    simp only [quad4_jacobian_affine A b rfl]
    rw [← scaleJxW_mul_left hA]
    rfl
  · rw [Quad4JacobianCalculator.getJxW_of_ne
        (c := Quad4JacobianCalculator.new ⟨.QUAD4, qt, o⟩ rule)
        (show (elem.affine A b).type ≠ _ from he),
      Quad4JacobianCalculator.getJxW_of_ne
        (c := Quad4JacobianCalculator.new ⟨.QUAD4, qt, o⟩ rule) he]
    rfl

variable {c9 : Quad9JacobianCalculator R}

theorem quad9_jacobianAt_affine (h9 : Quad9JacobianCalculator.new ⟨.QUAD9, qt, o⟩ rule = .ok c9)
    (A : Matrix (Fin 2) (Fin 2) R) (b : Fin 2 → R) {elem : Elem R} (he : elem.type = .QUAD9)
    {q : Nat} (hq : q < rule.points.length) :
    c9.jacobianAt (fun i j => Quad9JacobianCalculator.grid (elem.affine A b).node i j 0)
        (fun i j => Quad9JacobianCalculator.grid (elem.affine A b).node i j 1) q =
      (A.det * ·) <$> c9.jacobianAt (fun i j => Quad9JacobianCalculator.grid elem.node i j 0)
        (fun i j => Quad9JacobianCalculator.grid elem.node i j 1) q := by
  have hX : ∀ n : Fin 9, (elem.affine A b).node n = Point.affine A b (elem.node n) :=
    fun n => Elem.node_affine A b elem (by rw [elem.length_nodes, he]; exact n.isLt)
  rw [quad9_jacobianAt_eq h9 _ hq, quad9_jacobianAt_eq h9 _ hq, map_ok,
    ← quad9Sums_affine A b rfl]
  simp only [quad9Sums, hX]

theorem quad9_getJxW_affine (h9 : Quad9JacobianCalculator.new ⟨.QUAD9, qt, o⟩ rule = .ok c9)
    (A : Matrix (Fin 2) (Fin 2) R) (b : Fin 2 → R) (hA : 0 < A.det) (elem : Elem R) :
    c9.getJxW (elem.affine A b) = List.map (· * A.det) <$> c9.getJxW elem := by
  have hw := Quad9JacobianCalculator.new_wf h9
  have h9k : c9.toJacobianCalculator = JacobianCalculator.new ⟨.QUAD9, qt, o⟩ rule := by
    obtain ⟨-, -, rfl⟩ := Quad9JacobianCalculator.new_eq_ok.mp h9; rfl
  by_cases he : elem.type = .QUAD9
  · have he' : elem.type = c9.quadKey.elemType := by rw [h9k]; exact he
    rw [Quad9JacobianCalculator.getJxW_eq hw (show (elem.affine A b).type = _ from he')
        (by rw [Elem.affine_type, he]; decide),
      Quad9JacobianCalculator.getJxW_eq hw he' (by rw [he]; decide), ← scaleJxW_mul_left hA]
    refine scaleJxW_congr fun q hq => ?_
    have hq' : q < rule.points.length := by
      rw [rule.length_eq, ← JacobianCalculator.new_quadWeights ⟨.QUAD9, qt, o⟩ rule, ← h9k]; omega
    rw [Nat.zero_add, ← Quad9JacobianCalculator.jacobianAt_of_lt hw _ _ hq,
      ← Quad9JacobianCalculator.jacobianAt_of_lt hw _ _ hq, quad9_jacobianAt_affine h9 A b he hq']
  · have he' : elem.type ≠ c9.quadKey.elemType := by rw [h9k]; exact he
    rw [Quad9JacobianCalculator.getJxW_of_ne (show (elem.affine A b).type ≠ _ from he'),
      Quad9JacobianCalculator.getJxW_of_ne he']
    rfl

end Calculators

/-! The generic path on moved elements. -/

section Lagrange

variable {quadKey : KeyType} {rule : QRule R}

theorem lagrange_jacobianOf_affine {d : Nat} {c : LagrangeJacobianCalculator R d d}
    {shapeDeriv : Fin (getNNodes quadKey.elemType) → Fin d → Point R → R}
    (h : LagrangeJacobianCalculator.new quadKey rule shapeDeriv = .ok c)
    (hsum : ∀ j p, ∑ n, shapeDeriv n j p = 0) (sqrt : R → R) (h1 : 1 ≤ d) (h3 : d ≤ 3)
    (A : Matrix (Fin d) (Fin d) R) (b : Fin d → R) {elem : Elem R}
    (he : elem.type = quadKey.elemType) {q : Nat} (hq : q < rule.points.length) :
    jacobianOf sqrt (c.contravariant (elem.affine A b) q) =
      (A.det * ·) <$> jacobianOf sqrt (c.contravariant elem q) := by
  rw [LagrangeJacobianCalculator.contravariant_affine h hsum h3 A b he hq,
    jacobianOf_square _ _ h1 h3, jacobianOf_square _ _ h1 h3, Matrix.det_mul, map_ok]

end Lagrange

end Field

section Real

variable {quadKey : KeyType} {rule : QRule ℝ} {dim spacedim : Nat}

theorem jacobianOf_smul_orthogonal (F : Matrix (Fin spacedim) (Fin dim) ℝ) {a : ℝ} (ha : 0 < a)
    {Rm : Matrix (Fin spacedim) (Fin spacedim) ℝ} (hR : Rmᵀ * Rm = 1) (hds : dim ≠ spacedim)
    (h1 : 1 ≤ dim) (h3 : dim ≤ 3) :
    jacobianOf Real.sqrt ((a • Rm) * F) = (a ^ dim * ·) <$> jacobianOf Real.sqrt F := by
  have hg : ((a • Rm) * F)ᵀ * ((a • Rm) * F) = (a ^ 2) • (Fᵀ * F) := by
    rw [Matrix.transpose_mul, Matrix.transpose_smul, Matrix.smul_mul, Matrix.mul_smul,
      Matrix.mul_smul, Matrix.smul_mul, Matrix.mul_assoc, ← Matrix.mul_assoc Rmᵀ, hR,
      Matrix.one_mul, smul_smul, sq]
  rw [jacobianOf_manifold _ _ hds h1 h3, jacobianOf_manifold _ _ hds h1 h3, map_ok, hg,
    Matrix.det_smul, Fintype.card_fin, ← pow_mul, mul_comm 2, pow_mul,
    Real.sqrt_mul (pow_nonneg (pow_nonneg ha.le _) _), Real.sqrt_sq (pow_nonneg ha.le _)]

theorem lagrange_jacobianOf_scaled_rotation {d s : Nat} {c : LagrangeJacobianCalculator ℝ d s}
    {shapeDeriv : Fin (getNNodes quadKey.elemType) → Fin d → Point ℝ → ℝ}
    (h : LagrangeJacobianCalculator.new quadKey rule shapeDeriv = .ok c)
    (hsum : ∀ j p, ∑ n, shapeDeriv n j p = 0) (hds : d ≠ s) (h1 : 1 ≤ d) (h3 : s ≤ 3)
    (hd3 : d ≤ 3) {a : ℝ} (ha : 0 < a) {Rm : Matrix (Fin s) (Fin s) ℝ} (hR : Rmᵀ * Rm = 1)
    (b : Fin s → ℝ) {elem : Elem ℝ} (he : elem.type = quadKey.elemType) {q : Nat}
    (hq : q < rule.points.length) :
    jacobianOf Real.sqrt (c.contravariant (elem.affine (a • Rm) b) q) =
      (a ^ d * ·) <$> jacobianOf Real.sqrt (c.contravariant elem q) := by
  rw [LagrangeJacobianCalculator.contravariant_affine h hsum h3 _ b he hq,
    jacobianOf_smul_orthogonal _ ha hR hds h1 hd3]

/-- **Affine covariance.** Moving the nodes by `x ↦ A x + b` multiplies the `J` of every
square calculator at every point by `det A`, and the `J` of a manifold instantiation by
`a^dim` when `A = a R` with `Rᵀ R = 1`; for a positive factor the returned `JxW` is scaled
by it and acceptance is unchanged. -/
theorem jacobian_affine_covariant (qt : QuadratureType) (o : Nat) (rule : QRule ℝ) :
    (∀ (A : Matrix (Fin 2) (Fin 2) ℝ) (b : Fin 2 → ℝ) (p0 p1 p2 : Point ℝ),
      Tri3JacobianCalculator.jacobian (Point.affine A b p0) (Point.affine A b p1)
          (Point.affine A b p2) = A.det * Tri3JacobianCalculator.jacobian p0 p1 p2) ∧
    (∀ (A : Matrix (Fin 3) (Fin 3) ℝ) (b : Fin 3 → ℝ) (p0 p1 p2 p3 : Point ℝ),
      Tet4JacobianCalculator.jacobian (Point.affine A b p0) (Point.affine A b p1)
          (Point.affine A b p2) (Point.affine A b p3) =
        A.det * Tet4JacobianCalculator.jacobian p0 p1 p2 p3) ∧
    (∀ (A : Matrix (Fin 2) (Fin 2) ℝ) (b : Fin 2 → ℝ) (p0 p1 p2 p3 : Point ℝ) (ξ η : ℝ),
      (Quad4Coefficients.of (Point.affine A b p0) (Point.affine A b p1)
          (Point.affine A b p2) (Point.affine A b p3)).jacobian ξ η =
        A.det * (Quad4Coefficients.of p0 p1 p2 p3).jacobian ξ η) ∧
    (∀ (c9 : Quad9JacobianCalculator ℝ) (A : Matrix (Fin 2) (Fin 2) ℝ) (b : Fin 2 → ℝ)
      (elem : Elem ℝ), Quad9JacobianCalculator.new ⟨.QUAD9, qt, o⟩ rule = .ok c9 →
      elem.type = .QUAD9 → ∀ q < rule.points.length,
        c9.jacobianAt (fun i j => Quad9JacobianCalculator.grid (elem.affine A b).node i j 0)
            (fun i j => Quad9JacobianCalculator.grid (elem.affine A b).node i j 1) q =
          (A.det * ·) <$> c9.jacobianAt (fun i j => Quad9JacobianCalculator.grid elem.node i j 0)
            (fun i j => Quad9JacobianCalculator.grid elem.node i j 1) q) ∧
    (∀ {d : Nat} (quadKey : KeyType)
      (shapeDeriv : Fin (getNNodes quadKey.elemType) → Fin d → Point ℝ → ℝ)
      (c : LagrangeJacobianCalculator ℝ d d) (A : Matrix (Fin d) (Fin d) ℝ) (b : Fin d → ℝ)
      (elem : Elem ℝ), (d, d) ∈ instantiations →
      LagrangeJacobianCalculator.new quadKey rule shapeDeriv = .ok c →
      (∀ j p, ∑ n, shapeDeriv n j p = 0) → elem.type = quadKey.elemType →
      ∀ q < rule.points.length, jacobianOf Real.sqrt (c.contravariant (elem.affine A b) q) =
        (A.det * ·) <$> jacobianOf Real.sqrt (c.contravariant elem q)) ∧
    (∀ {d s : Nat} (quadKey : KeyType)
      (shapeDeriv : Fin (getNNodes quadKey.elemType) → Fin d → Point ℝ → ℝ)
      (c : LagrangeJacobianCalculator ℝ d s) (a : ℝ) (Rm : Matrix (Fin s) (Fin s) ℝ)
      (b : Fin s → ℝ) (elem : Elem ℝ), (d, s) ∈ instantiations → d < s →
      LagrangeJacobianCalculator.new quadKey rule shapeDeriv = .ok c →
      (∀ j p, ∑ n, shapeDeriv n j p = 0) → 0 < a → Rmᵀ * Rm = 1 →
      elem.type = quadKey.elemType → ∀ q < rule.points.length,
        jacobianOf Real.sqrt (c.contravariant (elem.affine (a • Rm) b) q) =
          (a ^ d * ·) <$> jacobianOf Real.sqrt (c.contravariant elem q)) ∧
    (∀ (A : Matrix (Fin 2) (Fin 2) ℝ) (b : Fin 2 → ℝ) (elem : Elem ℝ), 0 < A.det →
      (Tri3JacobianCalculator.new ⟨.TRI3, qt, o⟩ rule).getJxW (elem.affine A b) =
        List.map (· * A.det) <$> (Tri3JacobianCalculator.new ⟨.TRI3, qt, o⟩ rule).getJxW elem) ∧
    (∀ (A : Matrix (Fin 3) (Fin 3) ℝ) (b : Fin 3 → ℝ) (elem : Elem ℝ), 0 < A.det →
      (Tet4JacobianCalculator.new ⟨.TET4, qt, o⟩ rule).getJxW (elem.affine A b) =
        List.map (· * A.det) <$> (Tet4JacobianCalculator.new ⟨.TET4, qt, o⟩ rule).getJxW elem) ∧
    (∀ (A : Matrix (Fin 2) (Fin 2) ℝ) (b : Fin 2 → ℝ) (elem : Elem ℝ), 0 < A.det →
      (Quad4JacobianCalculator.new ⟨.QUAD4, qt, o⟩ rule).getJxW (elem.affine A b) =
        List.map (· * A.det) <$> (Quad4JacobianCalculator.new ⟨.QUAD4, qt, o⟩ rule).getJxW elem) ∧
    (∀ (c9 : Quad9JacobianCalculator ℝ) (A : Matrix (Fin 2) (Fin 2) ℝ) (b : Fin 2 → ℝ)
      (elem : Elem ℝ), Quad9JacobianCalculator.new ⟨.QUAD9, qt, o⟩ rule = .ok c9 → 0 < A.det →
      c9.getJxW (elem.affine A b) = List.map (· * A.det) <$> c9.getJxW elem) ∧
    (∀ {d : Nat} (quadKey : KeyType)
      (shapeDeriv : Fin (getNNodes quadKey.elemType) → Fin d → Point ℝ → ℝ)
      (c : LagrangeJacobianCalculator ℝ d d) (A : Matrix (Fin d) (Fin d) ℝ) (b : Fin d → ℝ)
      (elem : Elem ℝ), (d, d) ∈ instantiations →
      LagrangeJacobianCalculator.new quadKey rule shapeDeriv = .ok c →
      (∀ j p, ∑ n, shapeDeriv n j p = 0) → 0 < A.det →
      c.getJxW Real.sqrt (elem.affine A b) = List.map (· * A.det) <$> c.getJxW Real.sqrt elem) ∧
    ∀ {d s : Nat} (quadKey : KeyType)
      (shapeDeriv : Fin (getNNodes quadKey.elemType) → Fin d → Point ℝ → ℝ)
      (c : LagrangeJacobianCalculator ℝ d s) (a : ℝ) (Rm : Matrix (Fin s) (Fin s) ℝ)
      (b : Fin s → ℝ) (elem : Elem ℝ), (d, s) ∈ instantiations → d < s →
      LagrangeJacobianCalculator.new quadKey rule shapeDeriv = .ok c →
      (∀ j p, ∑ n, shapeDeriv n j p = 0) → 0 < a → Rmᵀ * Rm = 1 →
      c.getJxW Real.sqrt (elem.affine (a • Rm) b) =
        List.map (· * a ^ d) <$> c.getJxW Real.sqrt elem := by
  refine ⟨fun A b => tri3_jacobian_affine A b rfl, fun A b => tet4_jacobian_affine A b rfl,
    fun A b => quad4_jacobian_affine A b rfl,
    fun c9 A b elem h9 he q hq => quad9_jacobianAt_affine h9 A b he hq,
    fun {d} quadKey sd c A b elem hi h hsum he q hq => ?_,
    fun {d s} quadKey sd c a Rm b elem hi hds h hsum ha hR he q hq => ?_,
    fun A b elem hA => tri3_getJxW_affine A b hA elem,
    fun A b elem hA => tet4_getJxW_affine A b hA elem,
    fun A b elem hA => quad4_getJxW_affine A b hA elem,
    fun c9 A b elem h9 hA => quad9_getJxW_affine h9 A b hA elem,
    fun {d} quadKey sd c A b elem hi h hsum hA => ?_,
    fun {d s} quadKey sd c a Rm b elem hi hds h hsum ha hR => ?_⟩
  · obtain ⟨h1, -, h3⟩ := mem_instantiations hi
    exact lagrange_jacobianOf_affine h hsum _ h1 h3 A b he hq
  · obtain ⟨h1, -, h3⟩ := mem_instantiations hi
    exact lagrange_jacobianOf_scaled_rotation h hsum hds.ne h1 h3 (by omega) ha hR b he hq
  · obtain ⟨h1, -, h3⟩ := mem_instantiations hi
    exact LagrangeJacobianCalculator.getJxW_of_jacobian_mul h _ h3 hA rfl
      fun he _ hq => lagrange_jacobianOf_affine h hsum _ h1 h3 A b he hq
  · obtain ⟨h1, -, h3⟩ := mem_instantiations hi
    exact LagrangeJacobianCalculator.getJxW_of_jacobian_mul h _ h3 (pow_pos ha d) rfl
      fun he _ hq =>
        lagrange_jacobianOf_scaled_rotation h hsum hds.ne h1 h3 (by omega) ha hR b he hq

/-- The map `x ↦ A x + b` with `A = [[2, 1], [0, 3]]`, `det A = 6`, on the reference `QUAD9`
and `QUAD4`, and twice a quarter turn on the segment from `(0, 0)` to `(3, 4)` in the plane:
the one-point rule's `JxW` become `4 · 6` and `5 · 2`. -/
theorem jacobian_affine_covariant_scaled :
    (∃ c9 : Quad9JacobianCalculator ℝ,
      Quad9JacobianCalculator.new ⟨.QUAD9, .QGAUSS, 1⟩ ⟨[0], [4], rfl⟩ = .ok c9 ∧
      c9.getJxW (quad9RefElem.affine !![(2 : ℝ), 1; 0, 3] ![1, -1]) = .ok [24]) ∧
    (∃ c : LagrangeJacobianCalculator ℝ 2 2,
      LagrangeJacobianCalculator.new ⟨.QUAD4, .QGAUSS, 1⟩ ⟨[0], [4], rfl⟩ quad4ShapeDeriv =
        .ok c ∧
      c.getJxW Real.sqrt (quad4RefElem.affine !![(2 : ℝ), 1; 0, 3] ![1, -1]) = .ok [24]) ∧
    ∃ c : LagrangeJacobianCalculator ℝ 1 2,
      LagrangeJacobianCalculator.new ⟨.EDGE2, .QGAUSS, 1⟩ ⟨[0], [2], rfl⟩
        (fun n _ p => edge2ShapeDeriv n (p 0)) = .ok c ∧
      c.getJxW Real.sqrt (Elem.affine ((2 : ℝ) • !![0, -1; 1, 0]) ![1, 1]
        ⟨.EDGE2, [0, ![3, 4, 0]], rfl⟩) = .ok [10] := by
  have hA : (!![(2 : ℝ), 1; 0, 3]).det = 6 := by
    rw [Matrix.det_fin_two_of]
    norm_num
  have hR : (!![(0 : ℝ), -1; 1, 0])ᵀ * !![0, -1; 1, 0] = 1 := by
    ext i j
    simp only [Matrix.mul_apply, Fin.sum_univ_two, Matrix.transpose_apply, Matrix.one_apply]
    fin_cases i <;> fin_cases j <;> simp
  have hcov := jacobian_affine_covariant .QGAUSS 1
  obtain ⟨c9, h9⟩ := Quad9JacobianCalculator.new_one_point (R := ℝ) ⟨.QUAD9, .QGAUSS, 1⟩
  obtain ⟨c2, h2⟩ := @LagrangeJacobianCalculator.new_ok ℝ _ 2 2
    ⟨.QUAD4, .QGAUSS, 1⟩ ⟨[0], [4], rfl⟩ quad4ShapeDeriv
  obtain ⟨c1, h1⟩ := @LagrangeJacobianCalculator.new_ok ℝ _ 1 2
    ⟨.EDGE2, .QGAUSS, 1⟩ ⟨[0], [2], rfl⟩ (fun n _ p => edge2ShapeDeriv n (p 0))
  have hseg : c1.getJxW Real.sqrt ⟨.EDGE2, [0, ![3, 4, 0]], rfl⟩ = .ok [5] := by
    rw [LagrangeJacobianCalculator.getJxW_of_new h1 (by norm_num), if_pos rfl,
      scaleJxW_of_ok (fun _ => 5 / 2) fun q hq => by
        obtain rfl : q = 0 := by simpa using hq
        exact jacobianOf_segment h1, if_pos fun _ _ => by norm_num]
    norm_num
  refine ⟨⟨c9, h9, ?_⟩, ⟨c2, h2, ?_⟩, c1, h1, ?_⟩
  · rw [(hcov _).2.2.2.2.2.2.2.2.2.1 _ _ _ _ h9 (hA ▸ by norm_num),
      Quad9JacobianCalculator.getJxW_quad9RefElem h9, hA]
    norm_num
  · rw [(hcov _).2.2.2.2.2.2.2.2.2.2.1 _ _ _ _ _ _ (by decide) h2 quad4ShapeDeriv_sum
      (hA ▸ by norm_num), ← quad4_getJxW_eq_lagrange h2,
      Quad4JacobianCalculator.getJxW_quad4RefElem, hA]
    norm_num
  · rw [(hcov _).2.2.2.2.2.2.2.2.2.2.2 _ _ _ _ _ _ _ (by decide) (by decide) h1
      (fun j p => edge2ShapeDeriv_sum (p 0)) two_pos hR, hseg]
    norm_num

end Real

end IBTK
