import Mathlib

/- The data the Jacobian calculators of `ibtk/src/lagrangian/JacobianCalculator.cpp`
   work on, in exact arithmetic. A `double` is an element of a linearly ordered field
   `R` (the statements about real arithmetic take `R = ℝ`), and a libMesh `Point` is
   three of them (`LIBMESH_DIM = 3`).

   The program aborts on a failed `TBOX_ASSERT`, and reads out of range where an index
   leaves its container. The model returns `.error` in both cases, with a
   `JacobianError` naming the check that failed; every indexed read goes through
   `getChecked`, so that index safety is a statement about the model.

   Correspondence (C++ ↔ Lean):
     `libMesh::ElemType`, `QuadratureType`   ↔ `ElemType`, `QuadratureType`
     `JacobianCalculator::key_type`          ↔ `KeyType`
     `get_n_nodes`, `Elem::max_n_nodes`      ↔ `getNNodes`, `maxNNodes`
     `elem->point(i)`                        ↔ `Elem.point`
     `QBase` after `init(elem_type)`         ↔ `QRule`
     the `template class` lines at the end   ↔ `instantiations` -/

namespace IBTK

/-- The libMesh element types the calculators are keyed on. -/
inductive ElemType
  | EDGE2 | EDGE3 | TRI3 | TRI6 | QUAD4 | QUAD9 | TET4 | TET10 | HEX8 | HEX27
  deriving DecidableEq, Repr

/-- The libMesh quadrature families; the calculators only hand them to `QBase::build`. -/
inductive QuadratureType
  | QGAUSS | QGAUSS_LOBATTO | QGRID
  deriving DecidableEq, Repr

/-- `JacobianCalculator::key_type`, the tuple `(ElemType, QuadratureType, Order)`. -/
structure KeyType where
  elemType : ElemType
  quadType : QuadratureType
  order : Nat
  deriving DecidableEq, Repr

/-- Modelled from the spec: `get_n_nodes` of `ibtk/libmesh_utilities.h`, absent from the
sources, the number of nodes of an element of each type. -/
def getNNodes : ElemType → Nat
  | .EDGE2 => 2
  | .EDGE3 => 3
  | .TRI3 => 3
  | .TRI6 => 6
  | .QUAD4 => 4
  | .QUAD9 => 9
  | .TET4 => 4
  | .TET10 => 10
  | .HEX8 => 8
  | .HEX27 => 27

/-- `libMesh::Elem::max_n_nodes`, the row count of the node buffer of the generic path. -/
def maxNNodes : Nat := 27

theorem getNNodes_le_maxNNodes (t : ElemType) : getNNodes t ≤ maxNNodes := by
  cases t <;> decide

/-- A libMesh `Point`. -/
abbrev Point (R : Type) := Fin 3 → R

/-- `p(i)` as a number, for the indices `i < LIBMESH_DIM` the calculators read. -/
def Point.coord {R : Type} [Zero R] (p : Point R) (i : Nat) : R :=
  if h : i < 3 then p ⟨i, h⟩ else 0

@[simp] theorem Point.coord_zero {R : Type} [Zero R] (p : Point R) : Point.coord p 0 = p 0 := rfl
@[simp] theorem Point.coord_one {R : Type} [Zero R] (p : Point R) : Point.coord p 1 = p 1 := rfl
@[simp] theorem Point.coord_two {R : Type} [Zero R] (p : Point R) : Point.coord p 2 = p 2 := rfl

@[simp] theorem Point.coord_fin {R : Type} [Zero R] (p : Point R) (i : Fin 3) :
    Point.coord p i = p i := by
  simp [Point.coord]

/-- What stops a calculator: a failed `TBOX_ASSERT`, or a read outside its container. -/
inductive JacobianError
  /-- `elem->type() == std::get<0>(d_quad_key)` -/
  | elemTypeMismatch
  /-- `J > 0.0` -/
  | nonPositiveJacobian
  /-- `d_n_nodes <= libMesh::Elem::max_n_nodes` -/
  | tooManyNodes
  /-- `d_n_oned_q_points * d_n_oned_q_points == d_quad_points.size()` -/
  | nonSquareRule
  /-- `d_quad_points[q] == Point(oned_points[i](0), oned_points[j](0))` -/
  | notTensorProduct
  /-- the `determinant` template for sizes other than 1, 2 and 3 -/
  | nonSquareDeterminant
  /-- an index outside its container -/
  | outOfRange
  deriving DecidableEq, Repr

/-- `v[i]` on a `std::vector`, a `multi_array` row or a C array. -/
def getChecked {α : Type} (v : List α) (i : Nat) : Except JacobianError α :=
  match v[i]? with
  | some a => .ok a
  | none => .error .outOfRange

/-- A libMesh element as the calculators see it: its type and its nodes, as many as
the type has. -/
structure Elem (R : Type) where
  type : ElemType
  nodes : List (Point R)
  length_nodes : nodes.length = getNNodes type

/-- `elem->point(i)`. -/
def Elem.point {R : Type} (e : Elem R) (i : Nat) : Except JacobianError (Point R) :=
  getChecked e.nodes i

/-- The `n`-th node, or the origin past the last one. -/
def Elem.node {R : Type} [Zero R] (e : Elem R) (n : Nat) : Point R := e.nodes.getD n 0

/-- A libMesh quadrature rule after `init(elem_type)`: reference points and weights, one
weight a point. -/
structure QRule (R : Type) where
  points : List (Point R)
  weights : List R
  length_eq : points.length = weights.length

/-- The explicit instantiations `LagrangeJacobianCalculator<dim, spacedim>`. -/
def instantiations : List (Nat × Nat) := [(1, 1), (1, 2), (1, 3), (2, 2), (2, 3), (3, 3)]

theorem mem_instantiations {dim spacedim : Nat} (h : (dim, spacedim) ∈ instantiations) :
    1 ≤ dim ∧ dim ≤ spacedim ∧ spacedim ≤ 3 := by
  simp only [instantiations, List.mem_cons, Prod.mk.injEq, List.mem_nil_iff, or_false] at h
  omega

/-! The `Except` monad, evaluated. -/

@[simp] theorem pure_eq_ok {ε α : Type} (a : α) : (pure a : Except ε α) = .ok a := rfl

@[simp] theorem ok_bind {ε α β : Type} (a : α) (f : α → Except ε β) :
    (Except.ok a >>= f) = f a := rfl

@[simp] theorem error_bind {ε α β : Type} (e : ε) (f : α → Except ε β) :
    (Except.error e >>= f) = .error e := rfl

@[simp] theorem map_ok {ε α β : Type} (f : α → β) (a : α) :
    (f <$> Except.ok a : Except ε β) = .ok (f a) := rfl

@[simp] theorem map_error {ε α β : Type} (f : α → β) (e : ε) :
    (f <$> Except.error e : Except ε β) = .error e := rfl

@[simp] theorem throw_eq_error {ε α : Type} (e : ε) : (throw e : Except ε α) = .error e := rfl

theorem bind_eq_ok {ε α β : Type} {x : Except ε α} {f : α → Except ε β} {b : β} :
    (x >>= f) = .ok b ↔ ∃ a, x = .ok a ∧ f a = .ok b := by
  cases x <;> simp

theorem bind_eq_error {ε α β : Type} {x : Except ε α} {f : α → Except ε β} {e : ε} :
    (x >>= f) = .error e ↔ x = .error e ∨ ∃ a, x = .ok a ∧ f a = .error e := by
  cases x <;> simp

theorem forM_eq_ok {ε α : Type} {f : α → Except ε Unit} :
    ∀ {l : List α}, l.forM f = .ok () ↔ ∀ a ∈ l, f a = .ok ()
  | [] => by simp
  | a :: l => by
    rw [List.forM_cons', List.forall_mem_cons, ← forM_eq_ok (l := l)]
    cases f a <;> simp

theorem forM_eq_error {ε α : Type} {f : α → Except ε Unit} {e : ε} :
    ∀ {l : List α}, l.forM f = .error e → ∃ a ∈ l, f a = .error e
  | [], h => by cases h
  | a :: l, h => by
    rw [List.forM_cons'] at h
    cases ha : f a with
    | error e' => rw [ha] at h; cases h; exact ⟨a, by simp, ha⟩
    | ok u =>
      rw [ha, ok_bind] at h
      obtain ⟨b, hb, hfb⟩ := forM_eq_error h
      exact ⟨b, by simp [hb], hfb⟩

/-! Checked reads. -/

@[simp] theorem getChecked_of_lt {α : Type} {v : List α} {i : Nat} (h : i < v.length) :
    getChecked v i = .ok v[i] := by
  simp [getChecked, h]

theorem getChecked_of_le {α : Type} {v : List α} {i : Nat} (h : v.length ≤ i) :
    getChecked v i = .error .outOfRange := by
  simp [getChecked, List.getElem?_eq_none h]

theorem getChecked_eq_ok {α : Type} {v : List α} {i : Nat} {a : α} :
    getChecked v i = .ok a ↔ v[i]? = some a := by
  unfold getChecked; cases v[i]? <;> simp

theorem Elem.point_of_lt {R : Type} (e : Elem R) {i : Nat} (h : i < e.nodes.length) :
    e.point i = .ok e.nodes[i] :=
  getChecked_of_lt h

theorem Elem.point_eq_node {R : Type} [Zero R] (e : Elem R) {n : Nat}
    (h : n < getNNodes e.type) : e.point n = .ok (e.node n) := by
  have h' : n < e.nodes.length := e.length_nodes ▸ h
  rw [Elem.point_of_lt e h', Elem.node, List.getD_eq_getElem?_getD, List.getElem?_eq_getElem h',
    Option.getD_some]

end IBTK
