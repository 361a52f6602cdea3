import IbtkJacobian.Basic

/- The part of libMesh's reference-element library the calculators consume: the Lagrange
   shape functions of `FE<dim, LAGRANGE>` and their derivatives, for the element types
   the specialised calculators are compared against. libMesh builds the quadrilaterals as
   tensor products of the 1-D bases (`EDGE2` for `QUAD4`, `EDGE3` for `QUAD9`), through
   its index tables `i0` and `i1`; the simplices have constant derivatives.

   The shape derivatives of every Lagrange basis sum to zero over the nodes (the shapes
   sum to one): `edge3ShapeDeriv_sum`, `quad4ShapeDeriv_sum`, ... . For the quadrilaterals
   this is the 1-D fact, since `i0`, `i1` enumerate the tensor grid once each
   (`quad4_sum_tensor`, `quad9_sum_tensor`). -/

namespace IBTK

variable {R : Type} [LinearOrderedField R]

/-- `FE<1, LAGRANGE>::shape(EDGE2, FIRST, i, ξ)`: nodes at `-1`, `1`. -/
def edge2Shape (i : Fin 2) (ξ : R) : R := ![0.5 * (1 - ξ), 0.5 * (1 + ξ)] i

/-- `FE<1, LAGRANGE>::shape_deriv(EDGE2, FIRST, i, 0, ξ)`. -/
def edge2ShapeDeriv (i : Fin 2) (_ξ : R) : R := ![-0.5, 0.5] i

/-- `FE<1, LAGRANGE>::shape(EDGE3, SECOND, i, ξ)`: nodes at `-1`, `1` and `0`. -/
def edge3Shape (i : Fin 3) (ξ : R) : R := ![0.5 * ξ * (ξ - 1), 0.5 * ξ * (ξ + 1), 1 - ξ * ξ] i

/-- `FE<1, LAGRANGE>::shape_deriv(EDGE3, SECOND, i, 0, ξ)`. -/
def edge3ShapeDeriv (i : Fin 3) (ξ : R) : R := ![ξ - 0.5, ξ + 0.5, -2 * ξ] i

/-- libMesh's `i0`/`i1` tables for `QUAD4`: node `n` is 1-D node `quad4I0 n` in `ξ` and
`quad4I1 n` in `η`. -/
def quad4I0 : Fin 4 → Fin 2 := ![0, 1, 1, 0]
def quad4I1 : Fin 4 → Fin 2 := ![0, 0, 1, 1]

/-- The same tables for `QUAD9`, over the `EDGE3` nodes `-1, 1, 0`. -/
def quad9I0 : Fin 9 → Fin 3 := ![0, 1, 1, 0, 2, 1, 2, 0, 2]
def quad9I1 : Fin 9 → Fin 3 := ![0, 0, 1, 1, 0, 2, 1, 2, 2]

/-- `FE<2, LAGRANGE>::shape(QUAD4, FIRST, n, p)`. -/
def quad4Shape (n : Fin 4) (p : Point R) : R := edge2Shape (quad4I0 n) (p 0) * edge2Shape (quad4I1 n) (p 1)

/-- `FE<2, LAGRANGE>::shape_deriv(QUAD4, FIRST, n, j, p)`. -/
def quad4ShapeDeriv (n : Fin 4) (j : Fin 2) (p : Point R) : R :=
  ![edge2ShapeDeriv (quad4I0 n) (p 0) * edge2Shape (quad4I1 n) (p 1),
    edge2Shape (quad4I0 n) (p 0) * edge2ShapeDeriv (quad4I1 n) (p 1)] j

/-- `FE<2, LAGRANGE>::shape(QUAD9, SECOND, n, p)`. -/
def quad9Shape (n : Fin 9) (p : Point R) : R := edge3Shape (quad9I0 n) (p 0) * edge3Shape (quad9I1 n) (p 1)

/-- `FE<2, LAGRANGE>::shape_deriv(QUAD9, SECOND, n, j, p)`. -/
def quad9ShapeDeriv (n : Fin 9) (j : Fin 2) (p : Point R) : R :=
  ![edge3ShapeDeriv (quad9I0 n) (p 0) * edge3Shape (quad9I1 n) (p 1),
    edge3Shape (quad9I0 n) (p 0) * edge3ShapeDeriv (quad9I1 n) (p 1)] j

/-- `FE<2, LAGRANGE>::shape_deriv(TRI3, FIRST, n, j, p)`, for the shapes `1 - ξ - η, ξ, η`. -/
def tri3ShapeDeriv (n : Fin 3) (j : Fin 2) (_p : Point R) : R := ![![-1, -1], ![1, 0], ![0, 1]] n j

/-- `FE<3, LAGRANGE>::shape_deriv(TET4, FIRST, n, j, p)`, for the shapes
`1 - ξ - η - ζ, ξ, η, ζ`. -/
def tet4ShapeDeriv (n : Fin 4) (j : Fin 3) (_p : Point R) : R :=
  ![![-1, -1, -1], ![1, 0, 0], ![0, 1, 0], ![0, 0, 1]] n j

theorem edge2ShapeDeriv_sum (ξ : R) : ∑ i, edge2ShapeDeriv i ξ = 0 := by
  simp [edge2ShapeDeriv]

theorem edge3ShapeDeriv_sum (ξ : R) : ∑ i, edge3ShapeDeriv i ξ = 0 := by
  simp [edge3ShapeDeriv, Fin.sum_univ_succ]; ring

/-- libMesh's `QUAD4` numbering enumerates the 2×2 grid of `EDGE2` nodes once each. -/
theorem quad4_sum_tensor {M : Type} [AddCommMonoid M] (F : Fin 2 → Fin 2 → M) :
    ∑ n : Fin 4, F (quad4I0 n) (quad4I1 n) = ∑ a, ∑ b, F a b := by
  simp [Fin.sum_univ_succ, quad4I0, quad4I1]
  abel

/-- libMesh's `QUAD9` numbering enumerates the 3×3 grid of `EDGE3` nodes once each. -/
theorem quad9_sum_tensor {M : Type} [AddCommMonoid M] (F : Fin 3 → Fin 3 → M) :
    ∑ n : Fin 9, F (quad9I0 n) (quad9I1 n) = ∑ a, ∑ b, F a b := by
  simp [Fin.sum_univ_succ, quad9I0, quad9I1]
  abel

/-! A tensor-product derivative sums to `(Σ N') (Σ N)`, and `Σ N' = 0`. -/

theorem quad4ShapeDeriv_sum (j : Fin 2) (p : Point R) : ∑ n, quad4ShapeDeriv n j p = 0 := by
  fin_cases j
  · refine (quad4_sum_tensor fun a b => edge2ShapeDeriv a (p 0) * edge2Shape b (p 1)).trans ?_
    rw [← Finset.sum_mul_sum, edge2ShapeDeriv_sum, zero_mul]
  · refine (quad4_sum_tensor fun a b => edge2Shape a (p 0) * edge2ShapeDeriv b (p 1)).trans ?_
    rw [← Finset.sum_mul_sum, edge2ShapeDeriv_sum, mul_zero]

theorem quad9ShapeDeriv_sum (j : Fin 2) (p : Point R) : ∑ n, quad9ShapeDeriv n j p = 0 := by
  fin_cases j
  · refine (quad9_sum_tensor fun a b => edge3ShapeDeriv a (p 0) * edge3Shape b (p 1)).trans ?_
    rw [← Finset.sum_mul_sum, edge3ShapeDeriv_sum, zero_mul]
  · refine (quad9_sum_tensor fun a b => edge3Shape a (p 0) * edge3ShapeDeriv b (p 1)).trans ?_
    rw [← Finset.sum_mul_sum, edge3ShapeDeriv_sum, mul_zero]

theorem tri3ShapeDeriv_sum (j : Fin 2) (p : Point R) : ∑ n, tri3ShapeDeriv n j p = 0 := by
  fin_cases j <;> simp [tri3ShapeDeriv, Fin.sum_univ_succ]

theorem tet4ShapeDeriv_sum (j : Fin 3) (p : Point R) : ∑ n, tet4ShapeDeriv n j p = 0 := by
  fin_cases j <;> simp [tet4ShapeDeriv, Fin.sum_univ_succ]

/-- Column `j` of a simplex's contravariant matrix is the edge from vertex `0` to vertex
`j + 1`. -/
theorem tri3_sum_shapeDeriv (x : Fin 3 → R) (j : Fin 2) (p : Point R) :
    ∑ n, x n * tri3ShapeDeriv n j p = x j.succ - x 0 := by
  fin_cases j <;> simp [Fin.sum_univ_three, tri3ShapeDeriv] <;> ring

theorem tet4_sum_shapeDeriv (x : Fin 4 → R) (j : Fin 3) (p : Point R) :
    ∑ n, x n * tet4ShapeDeriv n j p = x j.succ - x 0 := by
  fin_cases j <;> simp [Fin.sum_univ_four, tet4ShapeDeriv, Matrix.vecHead, Matrix.vecTail, Fin.succ] <;>
    ring

end IBTK
