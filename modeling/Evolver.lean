import Evolver.Chromosome.Basic
import Evolver.Chromosome.Crossover
import Evolver.Chromosome.Random
import Evolver.Create.Basic
import Evolver.Create.Tree
import Evolver.Decimal.Basic
import Evolver.Decimal.Fixed
import Evolver.Decimal.Layout
import Evolver.Decimal.Read
import Evolver.Evolution.Breed
import Evolver.Evolution.Evolve
import Evolver.Evolution.Population
import Evolver.Evolution.Problem
import Evolver.Evolution.Setup
import Evolver.Evolution.Statistics
import Evolver.Evolution.Termination
import Evolver.Evolution.World
import Evolver.Fault
import Evolver.Fitness.Basic
import Evolver.Individual
import Evolver.Interface
import Evolver.Json.Basic
import Evolver.Json.Read
import Evolver.Json.Write
import Evolver.Kind
import Evolver.Lab
import Evolver.Learn.Classify
import Evolver.Learn.Estimator
import Evolver.Learn.Metric
import Evolver.Main
import Evolver.Numeric.Cell
import Evolver.Numeric.DType
import Evolver.Numeric.Operand
import Evolver.Numeric.Ufunc
import Evolver.Numeric.Weights
import Evolver.Operator.Apply
import Evolver.Operator.Basic
import Evolver.Package
import Evolver.Pareto.Fronts
import Evolver.Primitive.Basic
import Evolver.Primitive.Eval
import Evolver.Proofs.Breed.Operators
import Evolver.Proofs.Numeric.Order
import Evolver.Proofs.Numeric.Rounding
import Evolver.Proofs.Pareto.Crowding
import Evolver.Proofs.Pareto.Depth
import Evolver.Proofs.Pareto.Dominance
import Evolver.Proofs.Pareto.Scores
import Evolver.Proofs.Pareto.Select
import Evolver.Proofs.Pareto.Stamps
import Evolver.Proofs.Run
import Evolver.Proofs.Store.Frame
import Evolver.Proofs.Tree.Append
import Evolver.Proofs.Tree.Arity
import Evolver.Proofs.Tree.Crossover
import Evolver.Proofs.Tree.Grow
import Evolver.Proofs.Tree.Prefix
import Evolver.Proofs.Tree.Reach
import Evolver.Proofs.Tree.Subtree
import Evolver.Proofs.Value.Sort
import Evolver.Publisher
import Evolver.Query.Answer
import Evolver.Query.Basic
import Evolver.Query.Benchmark
import Evolver.Query.Chromosome
import Evolver.Query.Create
import Evolver.Query.Evolve
import Evolver.Query.Fitness
import Evolver.Query.Individual
import Evolver.Query.Interface
import Evolver.Query.Learn
import Evolver.Query.Package
import Evolver.Query.Pareto
import Evolver.Query.Population
import Evolver.Query.Primitive
import Evolver.Query.Publisher
import Evolver.Query.Select
import Evolver.Query.Termination
import Evolver.Query.Tree
import Evolver.Random.Stream
import Evolver.Random.Twister
import Evolver.Select.Basic
import Evolver.Store
import Evolver.Tree.Basic
import Evolver.Tree.Execute
import Evolver.Tree.Node
import Evolver.Tree.Random
import Evolver.Tree.Subtree
import Evolver.Tree.Walk
import Evolver.Value.Arith
import Evolver.Value.Basic
import Evolver.Value.Json
import Evolver.Value.Mean
import Evolver.Value.Order
import Evolver.Value.Sort
import Evolver.Value.Text
import Evolver.Proofs.Breed.Selection
import Evolver.Proofs.Breed.Generation
import Evolver.Proofs.Random.Positions
import Evolver.Proofs.Breed.Tournament
import Evolver.Proofs.Store.Preserves
import Evolver.Proofs.Chromosome.Bounds
import Evolver.Proofs.Breed.VectorBounds
import Evolver.Proofs.Breed.Constants
import Evolver.Proofs.Breed.Copies
import Evolver.Proofs.Evolution.Quiet
import Evolver.Proofs.Evolution.Scoring
import Evolver.Proofs.Evolution.BestOfRun
import Evolver.Proofs.Evolution.Fronts
import Evolver.Proofs.Pareto.Comparison
import Evolver.Proofs.Chromosome.Segments
import Evolver.Proofs.Evolution.TypedCreation
import Evolver.Proofs.Evolution.RampedHalf
import Evolver.Proofs.Chromosome.Layout
import Evolver.Proofs.Breed.PointMutation
import Evolver.Proofs.Breed.Fallback
import Evolver.Proofs.Evolution.Corners
import Evolver.Proofs.Pareto.OrderFree
import Evolver.Proofs.Evolution.FirstBest
import Evolver.Proofs.Breed.Winners
import Evolver.Proofs.Evolution.Futures
import Evolver.Proofs.Tree.Between
import Evolver.Proofs.Tree.Full
import Evolver.Proofs.Tree.Mutation
import Evolver.Proofs.Tree.Table
import Evolver.Proofs.Evolution.Stagnation
import Evolver.Proofs.Evolution.Accounting
import Evolver.Proofs.Tree.Structure
import Evolver.Proofs.Numeric.Addition
import Evolver.Proofs.Pareto.MemberDistances
import Evolver.Proofs.Pareto.Peeling
