import Evolver.Fault
/-!
# Stable sorting by a comparison that may fail

`sortBy lt xs` sorts by a strict comparison that may fail, making exactly the
comparisons an adaptive binary-insertion sort makes, so that the result is
also fixed for comparisons that are no order (NaN keys).  It first takes the
longest run at the front (a non-descending one, or a strictly descending one,
which it reverses), then inserts every later item after the last item it is
not less than, found by binary search.  Equal items keep their order.

`sortDesc` sorts largest first and keeps equal items in their order, by
sorting the reversed list and reversing the result.
-/

namespace Evolver

variable {α : Type}

/-- The length of the run at the front and whether it strictly descends. -/
def frontRun (lt : α → α → Except Fault Bool) : List α → Except Fault (Nat × Bool)
  | [] => pure (0, false)
  | [_] => pure (1, false)
  | a :: b :: rest => do
    if ← lt b a then
      let n ← go true b rest 2
      pure (n, true)
    else
      let n ← go false b rest 2
      pure (n, false)
where
  /-- Extend the run while the next item keeps its direction. -/
  go (down : Bool) (prev : α) : List α → Nat → Except Fault Nat
    | [], n => pure n
    | x :: xs, n => do
      let less ← lt x prev
      if less == down then go down x xs (n + 1) else pure n

/-- The position in the sorted list `sorted` after which `x` goes: after every
item it is not less than, by binary search over `[l, r)`. -/
def insertionPoint (lt : α → α → Except Fault Bool) (sorted : Array α) (x : α) :
    Nat → Nat → Nat → Except Fault Nat
  | 0, l, _ => pure l
  | fuel + 1, l, r =>
    if l < r then do
      let p := l + (r - l) / 2
      if ← lt x (sorted.getD p x) then insertionPoint lt sorted x fuel l p
      else insertionPoint lt sorted x fuel (p + 1) r
    else pure l

/-- Insert the items one by one into the sorted array. -/
def insertAll (lt : α → α → Except Fault Bool) : Array α → List α → Except Fault (Array α)
  | sorted, [] => pure sorted
  | sorted, x :: xs => do
    let i ← insertionPoint lt sorted x (sorted.size + 1) 0 sorted.size
    insertAll lt (sorted.insertIdxIfInBounds i x) xs

/-- The items sorted by `lt`, stably. -/
def sortBy (lt : α → α → Except Fault Bool) (xs : List α) : Except Fault (List α) := do
  let (n, down) ← frontRun lt xs
  let run := xs.take n
  let run := if down then run.reverse else run
  let sorted ← insertAll lt run.toArray (xs.drop n)
  pure sorted.toList

/-- The items sorted largest first by `lt`; equal items keep their order. -/
def sortDesc (lt : α → α → Except Fault Bool) (xs : List α) : Except Fault (List α) := do
  pure (← sortBy lt xs.reverse).reverse

/-- The first greatest item by `gt`: an item replaces the one kept only when
it is greater. -/
def greatest (gt : α → α → Except Fault Bool) : List α → Except Fault (Option α)
  | [] => pure none
  | x :: xs => xs.foldlM (fun best y => do if ← gt y best then pure y else pure best) x >>= (pure ∘ some)

end Evolver
