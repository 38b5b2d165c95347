import AlgebraicModel.Declaration.Json
import AlgebraicModel.Model.Assembly
import AlgebraicModel.Proofs.Constraint.Registry
import AlgebraicModel.Proofs.Constraint.Broadcast
import AlgebraicModel.Proofs.Population.MapTwin
import AlgebraicModel.Proofs.Population.Comprehension
import AlgebraicModel.Proofs.IndexValue.Exact
import AlgebraicModel.Proofs.Container.HashTable
import AlgebraicModel.Proofs.Population.ChecksFirst
import AlgebraicModel.Proofs.Model.Integrity
import AlgebraicModel.Proofs.Population.Symmetric
import AlgebraicModel.Proofs.Model.Collection
import AlgebraicModel.Proofs.Model.Variables
import AlgebraicModel.Proofs.Model.Constraints
import AlgebraicModel.Proofs.Model.Failures
import AlgebraicModel.Proofs.Model.Labels
import AlgebraicModel.Proofs.Declaration.Stored
import AlgebraicModel.Proofs.Binary64.Rounding
import AlgebraicModel.Proofs.Expr.Arithmetic
import AlgebraicModel.Proofs.Expr.Comparison
import AlgebraicModel.Proofs.Expr.Extremum
import AlgebraicModel.Proofs.Population.Columns
import AlgebraicModel.Proofs.Model.Semidefinite
import AlgebraicModel.Proofs.Expr.Dependency
import AlgebraicModel.Proofs.Function.Merged
import AlgebraicModel.Proofs.Constraint.Dispatch
import AlgebraicModel.Proofs.Constraint.Bounds
import AlgebraicModel.Proofs.Variable
import AlgebraicModel.Proofs.Container.Addressing
import AlgebraicModel.Proofs.Expr.Readability
import AlgebraicModel.Proofs.Model.ElementNames
