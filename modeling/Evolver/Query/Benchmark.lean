import Evolver.Query.Basic
/-!
# Queries naming a benchmark

A `microbench` query names one of the package's timing benchmarks and gives
its keyword arguments.  Each benchmark takes a single size argument.  A name
that is not a benchmark is refused as a bad request; a keyword that the
benchmark does not take fails as a call with an unexpected keyword argument.
The benchmark bodies themselves are not part of this library, so a
well-formed call is refused as a request the library cannot serve.
-/

namespace Evolver
namespace Query

/-- The benchmarks, each with the name of the size argument it takes. -/
def benchmarks : List (String × String) :=
  [("bench_base_primitive_functions", "n_calls"),
   ("bench_error_paths", "n_iters"),
   ("bench_gp_creators", "n_individuals"),
   ("bench_gp_tree_recursion", "n_trees"),
   ("bench_knapsack_evaluate", "n_items"),
   ("bench_nsga2_evolution", "pop_size"),
   ("bench_nsga2_front_sorting", "n_individuals"),
   ("bench_simple_evolution", "pop_size"),
   ("bench_tournament_selection", "n_source"),
   ("bench_vector_bounds_and_ops", "vec_len"),
   ("bench_vector_crossover", "n_pairs")]

/-- The failure of calling a function with a keyword it does not take. -/
def unexpectedKeyword (fn keyword : String) : Fault :=
  Fault.type s!"{fn}() got an unexpected keyword argument '{keyword}'"

/-- `{"op": "microbench", "bench", "params"}`: the benchmark is looked up by
name and its keywords are checked against its argument. -/
def benchmarkQuery (q : Json) : Except Fault Json := do
  let name := (q.getD "bench").str?.getD ""
  let some param := benchmarks.lookup name
    | throw (Fault.request s!"unknown bench {name}")
  let keywords := match q.getD "params" with
    | .obj kvs => kvs.map Prod.fst
    | _ => []
  if let some bad := keywords.find? (· != param) then
    throw (unexpectedKeyword name bad)
  throw (Fault.request s!"bench {name} is not available")

end Query
end Evolver
