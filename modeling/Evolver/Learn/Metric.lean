import Evolver.Numeric.Ufunc
import Evolver.Value.Mean
/-!
# Scores of predictions against the truth

* the mean absolute error: the mean of `|truth - prediction|`, as a double;
* the accuracy: the share of predictions equal to the truth, as a double.

Truth and prediction combine cell by cell, broadcast against each other, so
two lists of different lengths are a fault.
-/

namespace Evolver
namespace Learn

open Numeric

/-- The mean absolute difference of the prediction from the truth. -/
def meanAbsoluteError (truth prediction : Value) : Except Fault Value := do
  let gap ← Binary.subtract.apply truth prediction
  Value.toDouble (← (← Unary.absolute.apply gap).mean)

/-- The share of the predictions that equal the truth. -/
def accuracy (truth prediction : Value) : Except Fault Value := do
  Value.toDouble (← (← Binary.equal.apply truth prediction).mean)

end Learn
end Evolver
