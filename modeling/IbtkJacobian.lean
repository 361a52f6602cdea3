import IbtkJacobian.Basic
import IbtkJacobian.Base
import IbtkJacobian.Reference
import IbtkJacobian.Lagrange
import IbtkJacobian.Kernels
import IbtkJacobian.Quad9
import IbtkJacobian.TensorRule
import IbtkJacobian.Isoparametric
import IbtkJacobian.Equivalence
import IbtkJacobian.Manifold
import IbtkJacobian.Covariance
import IbtkJacobian.Parallelogram
import IbtkJacobian.Calculator
import IbtkJacobian.Convex
import IbtkJacobian.Subparametric
import IbtkJacobian.Boundary
