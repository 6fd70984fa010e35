import Evolver.Query.Select
import Evolver.Evolution.Population
/-!
# Queries on populations and subpopulations

`population` makes subpopulations of given individuals and reports the best
and worst individual and the mean score of each, and which subpopulation
holds some individuals.  `subpop` builds a subpopulation from creators,
probabilities, operators, selections and sizes, and reports what it derived.
-/

namespace Evolver
namespace Query

/-- The creators of a request, as given. -/
def creatorsGiven (j : Json) : Draw CreatorsGiven := do
  match j with
  | .null => pure .missing
  | .obj _ => pure (.one (← creatorOf j))
  | .arr xs => .many <$> xs.mapM fun x => match x with
    | .obj _ => some <$> creatorOf x
    | _ => pure none
  | j => .other <$> Draw.ofExcept (Value.ofJson j)

/-- The selections of a request, each with its probability. -/
def selectionsOf (j : Json) : Except Fault (Option (List (Selection × Value))) := do
  match j with
  | .null => pure none
  | .arr xs => some <$> xs.mapM fun x => do
    let kw ← kwargsOf x
    let s ← Selection.build (← getStr x "name") (kw.filter (·.1 != "prob"))
    pure (s, Operator.arg kw "prob" (.int 1))
  | _ => throw (Fault.request "bad selection")

/-- The operators of a request; none when missing. -/
def operatorsOf (j : Json) : Except Fault (Option (List Operator)) := do
  match j with
  | .null => pure none
  | .arr xs => some <$> xs.mapM operatorOf
  | _ => throw (Fault.request "bad operators")

/-- The probabilities of a request; none when missing. -/
def pcrOf (j : Json) : Except Fault (Option (List Value)) := do
  match j with
  | .null => pure none
  | .arr xs => some <$> xs.mapM Value.ofJson
  | _ => throw (Fault.request "bad pcr")

/-- The subpopulation of a request, for a problem. -/
def subpopulationOf (q : Json) (problem : Problem) : Run Subpopulation := do
  let given ← Run.draw (creatorsGiven (q.getD "creators"))
  let pcr ← Run.ofExcept (pcrOf (q.getD "pcr"))
  let ops ← Run.ofExcept (operatorsOf (q.getD "operators"))
  let sels ← Run.ofExcept (selectionsOf (q.getD "selection"))
  let rate ← Run.ofExcept (valueD q "elitism_rate" (.float 0.0))
  let size := getIntD q "population_size" 200
  let hib ← Run.ofExcept (valueD q "higher_is_better" (.bool false))
  Run.ofExcept (Subpopulation.make problem given pcr ops sels rate size hib)

/-- `{"op": "subpop", ...}`: the elites, size, probabilities and number of
creators of the subpopulation. -/
def subpopQuery (q : Json) : Run Json := do
  let s ← subpopulationOf q (.weightedSum none)
  pure (.obj [("n_elite", .int s.elites), ("population_size", .int s.size),
    ("pcr", (Value.list s.pcr).toJson), ("n_creators", .int s.creators.length)])

/-- The answer of a computation over the store: its value, or its fault. -/
def attemptJson (x : Run Json) : Run Json := do
  match ← Run.attempt x with
  | .ok j => pure j
  | .error e => pure (faultJson e)

/-- `{"op": "population", "subpopulations", "find"}`. -/
def populationQuery (q : Json) : Run Json := do
  let subs ← ((q.getD "subpopulations").arr?.getD []).mapM fun sj => do
    let ids ← ((sj.getD "individuals").arr?.getD []).mapM individualOf
    let hib ← Run.ofExcept (valueD sj "higher_is_better" (.bool false))
    let s : Subpopulation := ⟨[], [], [], [], ids.length, hib, .weightedSum none, 0, some ids⟩
    pure s
  let p : Population := ⟨subs⟩
  let place (id : Nat) : Json :=
    let found := (subs.zipIdx.findSome? fun (s, k) => (s.members.idxOf? id).map fun i => (k, i))
    match found with
    | some (k, i) => .arr [.int k, .int i]
    | none => .null
  let best ← attemptJson (do pure (.arr ((← p.bests).map place)))
  let worst ← attemptJson (do pure (.arr ((← p.subpops.mapM Subpopulation.worst).map place)))
  let average ← attemptJson (do pure (.arr ((← p.subpops.mapM Subpopulation.average).map Value.toJson)))
  let finds ← ((q.getD "find").arr?.getD []).mapM fun f => do
    match f with
    | .arr [.int s, .int i] =>
      let id ← if s < 0 then Run.draw Draw.freshId
        else pure (((subs[s.toNat]?.map Subpopulation.members).getD []).getD i.toNat 0)
      pure (stepJson (p.find id |>.map fun k => Json.int k))
    | _ => throw (Fault.request "bad find")
  pure (.obj [("best", best), ("worst", worst), ("average", average), ("find", .arr finds)])

end Query
end Evolver
