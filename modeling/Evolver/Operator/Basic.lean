import Evolver.Value.Order
/-!
# Genetic operators

A genetic operator takes a group of individuals of a fixed size (its arity)
and, with some probability, changes them in place.  The ones that may fail
try a number of times (their attempts) and then fall back.

| operator | takes | changes | defaults |
| --- | --- | --- | --- |
| `SubtreeCrossover` | 2 trees | swaps random subtrees of one kind round the group | attempts 1 |
| `SubtreeMutation` | 1 tree | replaces a random subtree by a grown one | depths (2, 4), attempts 1 |
| `ERCMutation` | 1 tree | moves a random number terminal by a normal deviate | μ 0, σ 1, attempts 1 |
| `IdentityTransformation` | 1 | nothing | |
| `VectorKPointsCrossover` | 2 vectors | swaps segments between `k` random cut points | `k` 1 |
| point mutations | 1 vector | redraws `n` sampled genes (or all of them) | attempts 5 |

The point mutations (`Mutation`) differ in how a gene is redrawn
(`GeneDraw`), in whether they sample `n` genes or visit every gene, and in
what they do when every attempt left a gene out of bounds: the Gaussian
ones fall back to the uniform mutation of as many genes, the others give
nothing back, which the caller then cannot iterate.

`Operator.build` makes an operator from its class name and keyword
arguments, with the defaults above.
-/

namespace Evolver

/-- How a point mutation draws the new value of a chosen gene. -/
inductive GeneDraw where
  /-- the bounds draw called with one argument too many, which fails -/
  | misapplied
  /-- uniformly within the gene's bounds -/
  | uniform
  /-- the gene moved by a normal deviate -/
  | gauss (mu sigma : Float)
  /-- uniformly within bounds with probability `p`, else unchanged -/
  | uniformSometimes (p : Value)
  /-- the other bit -/
  | flip
  /-- the other bit with probability `p`, else unchanged -/
  | flipSometimes (p : Value)

/-- A point mutation of vectors. -/
inductive Mutation where
  /-- `n` genes by the misapplied bounds draw -/
  | points (n : Int)
  /-- one gene, uniformly -/
  | uniformOne
  /-- `n` genes, uniformly -/
  | uniformPoints (n : Int)
  /-- one gene, by a normal deviate -/
  | gaussOne (mu sigma : Float)
  /-- `n` genes, by a normal deviate -/
  | gaussPoints (n : Int) (mu sigma : Float)
  /-- every gene, redrawn with probability `p` -/
  | intOne (p : Value)
  /-- `n` genes, uniformly -/
  | intPoints (n : Int)
  /-- one bit, flipped -/
  | flipOne
  /-- `n` bits, each flipped with probability `p` -/
  | flipPoints (n : Int) (p : Value)

namespace Mutation

/-- The class name of the mutation. -/
def className : Mutation → String
  | .points _ => "VectorNPointMutation"
  | .uniformOne => "FloatVectorUniformOnePointMutation"
  | .uniformPoints _ => "FloatVectorUniformNPointMutation"
  | .gaussOne _ _ => "FloatVectorGaussOnePointMutation"
  | .gaussPoints _ _ _ => "FloatVectorGaussNPointMutation"
  | .intOne _ => "IntVectorOnePointMutation"
  | .intPoints _ => "IntVectorNPointMutation"
  | .flipOne => "BitStringVectorFlipMutation"
  | .flipPoints _ _ => "BitStringVectorNFlipMutation"

/-- The module that defines the mutation's class. -/
def moduleName : Mutation → String
  | .points _ => "eckity.genetic_operators.mutations.vector_n_point_mutation"
  | _ => "eckity.genetic_operators.mutations.vector_random_mutation"

/-- How a chosen gene is redrawn. -/
def draw : Mutation → GeneDraw
  | .points _ => .misapplied
  | .uniformOne | .uniformPoints _ | .intPoints _ => .uniform
  | .gaussOne mu sigma | .gaussPoints _ mu sigma => .gauss mu sigma
  | .intOne p => .uniformSometimes p
  | .flipOne => .flip
  | .flipPoints _ p => .flipSometimes p

/-- How many genes are sampled; `none` visits every gene in order. -/
def count : Mutation → Option Int
  | .points n | .uniformPoints n | .gaussPoints n _ _ | .intPoints n | .flipPoints n _ => some n
  | .uniformOne | .gaussOne _ _ | .flipOne => some 1
  | .intOne _ => none

/-- The mutation applied when every attempt failed, if any. -/
def fallback : Mutation → Option Mutation
  | .gaussOne _ _ => some .uniformOne
  | .gaussPoints n _ _ => some (.uniformPoints n)
  | _ => none

end Mutation

/-- What an operator does to its group. -/
inductive Action where
  | subtreeCrossover
  /-- grow the new subtrees between these depths -/
  | subtreeMutation (depth : Int × Int)
  | ercMutation (mu sigma : Float)
  | identity
  | kPoints (k : Int)
  | mutate (m : Mutation)

namespace Action

/-- The class name of the operator. -/
def className : Action → String
  | .subtreeCrossover => "SubtreeCrossover"
  | .subtreeMutation _ => "SubtreeMutation"
  | .ercMutation _ _ => "ERCMutation"
  | .identity => "IdentityTransformation"
  | .kPoints _ => "VectorKPointsCrossover"
  | .mutate m => m.className

/-- The module that defines the operator's class. -/
def moduleName : Action → String
  | .subtreeCrossover => "eckity.genetic_operators.crossovers.subtree_crossover"
  | .subtreeMutation _ => "eckity.genetic_operators.mutations.subtree_mutation"
  | .ercMutation _ _ => "eckity.genetic_operators.mutations.erc_mutation"
  | .identity => "eckity.genetic_operators.mutations.identity_transformation"
  | .kPoints _ => "eckity.genetic_operators.crossovers.vector_k_point_crossover"
  | .mutate m => m.moduleName

end Action

/-- A genetic operator. -/
structure Operator where
  action : Action
  /-- the chance that the operator is applied to a group -/
  probability : Value
  /-- the size of a group -/
  arity : Int
  /-- how often an operator that may fail tries -/
  attempts : Int

namespace Operator

/-- The class name of the operator. -/
def className (o : Operator) : String := o.action.className

/-- The text of the operator object. -/
def text (o : Operator) : String := "<" ++ o.action.moduleName ++ "." ++ o.className ++ " object>"

/-- The names of the data an operator publishes with an event, sorted: the
individuals it was applied to, after acting. -/
def dataKeys (event : String) : List String :=
  if event == "after_operator" then ["applied_individuals"] else []

/-- Keyword arguments, by name. -/
abbrev Kwargs := List (String × Value)

/-- The argument of a name, or the default. -/
def arg (kw : Kwargs) (name : String) (d : Value) : Value :=
  ((kw.find? (·.1 == name)).map (·.2)).getD d

/-- An argument that must be an integer. -/
def intArg (kw : Kwargs) (name : String) (d : Int) : Except Fault Int :=
  match arg kw name (.int d) with
  | .int n => pure n
  | .bool b => pure (if b then 1 else 0)
  | _ => throw (Fault.request s!"unsupported {name}")

/-- An argument that must be a number, as a double. -/
def floatArg (kw : Kwargs) (name : String) (d : Float) : Except Fault Float :=
  match arg kw name (.float d) with
  | .int n => pure (Numeric.intToFloat n)
  | .float x => pure x
  | _ => throw (Fault.request s!"unsupported {name}")

/-- A pair of depths. -/
def depthArg (kw : Kwargs) : Except Fault (Int × Int) :=
  match arg kw "init_depth" (.tuple [.int 2, .int 4]) with
  | .tuple [.int a, .int b] | .list [.int a, .int b] => pure (a, b)
  | _ => throw (Fault.request "unsupported init_depth")

/-- The keyword parameters of each class. -/
def parameters : String → Option (List String)
  | "SubtreeCrossover" => some ["probability", "arity", "events", "attempts"]
  | "SubtreeMutation" => some ["arity", "probability", "init_depth", "events", "attempts"]
  | "ERCMutation" => some ["probability", "arity", "mu", "sigma", "events"]
  | "IdentityTransformation" => some ["probability", "events"]
  | "VectorKPointsCrossover" => some ["probability", "arity", "k", "events"]
  | "VectorNPointMutation" =>
    some ["n", "probability", "arity", "cell_selector", "mut_val_getter", "success_checker",
      "events", "attempts"]
  | "FloatVectorUniformOnePointMutation" => some ["probability", "arity", "events"]
  | "FloatVectorUniformNPointMutation" => some ["n", "probability", "arity", "events"]
  | "FloatVectorGaussOnePointMutation" =>
    some ["probability", "arity", "mu", "sigma", "events", "attempts"]
  | "FloatVectorGaussNPointMutation" =>
    some ["n", "probability", "arity", "mu", "sigma", "events", "attempts"]
  | "IntVectorOnePointMutation" => some ["probability", "arity", "events", "probability_for_each"]
  | "IntVectorNPointMutation" => some ["probability", "arity", "events", "n"]
  | "BitStringVectorFlipMutation" => some ["probability", "arity", "events"]
  | "BitStringVectorNFlipMutation" =>
    some ["probability", "arity", "events", "probability_for_each", "n"]
  | _ => none

/-- The operator of a class, from keyword arguments: each class has its own
defaults, and an operator that may fail needs at least one attempt. -/
def build (name : String) (kw : Kwargs) : Except Fault Operator := do
  let some params := parameters name | throw (Fault.request s!"unknown operator {name}")
  for (k, _) in kw do
    if !params.contains k then
      throw (Fault.type s!"{name}.__init__() got an unexpected keyword argument '{k}'")
  let p := arg kw "probability" (.float 1.0)
  let arity ← intArg kw "arity" 1
  let n ← intArg kw "n" 1
  let attempts ← intArg kw "attempts" 5
  let gauss : Except Fault (Float × Float) := do pure (← floatArg kw "mu" 0.0, ← floatArg kw "sigma" 1.0)
  let o : Operator ← match name with
    | "SubtreeCrossover" => pure ⟨.subtreeCrossover, p, ← intArg kw "arity" 2, ← intArg kw "attempts" 1⟩
    | "SubtreeMutation" => pure ⟨.subtreeMutation (← depthArg kw), p, 1, ← intArg kw "attempts" 1⟩
    | "ERCMutation" =>
      let (mu, sigma) ← gauss
      pure ⟨.ercMutation mu sigma, p, arity, 1⟩
    | "IdentityTransformation" => pure ⟨.identity, p, 1, 1⟩
    | "VectorKPointsCrossover" =>
      pure ⟨.kPoints (← intArg kw "k" 1), arg kw "probability" (.int 1), ← intArg kw "arity" 2, 1⟩
    | "VectorNPointMutation" => pure ⟨.mutate (.points n), p, arity, attempts⟩
    | "FloatVectorUniformOnePointMutation" => pure ⟨.mutate .uniformOne, p, arity, 5⟩
    | "FloatVectorUniformNPointMutation" => pure ⟨.mutate (.uniformPoints n), p, arity, 5⟩
    | "FloatVectorGaussOnePointMutation" =>
      let (mu, sigma) ← gauss
      pure ⟨.mutate (.gaussOne mu sigma), p, arity, attempts⟩
    | "FloatVectorGaussNPointMutation" =>
      let (mu, sigma) ← gauss
      pure ⟨.mutate (.gaussPoints n mu sigma), p, arity, attempts⟩
    | "IntVectorOnePointMutation" =>
      pure ⟨.mutate (.intOne (arg kw "probability_for_each" (.float 0.1))),
        arg kw "probability" (.float 0.5), arity, 5⟩
    | "IntVectorNPointMutation" => pure ⟨.mutate (.intPoints n), p, arity, 5⟩
    | "BitStringVectorFlipMutation" => pure ⟨.mutate .flipOne, p, arity, 5⟩
    | _ => pure ⟨.mutate (.flipPoints n (arg kw "probability_for_each" (.float 0.2))), p, arity, 5⟩
  if o.attempts < 1 then throw (Fault.value "Number of attempts must be at least 1")
  pure o

end Operator

end Evolver
