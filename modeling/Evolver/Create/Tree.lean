import Evolver.Tree.Random
import Evolver.Value.Order
/-!
# Growing random trees

A random tree is grown top-down in prefix order.  Each node is a random
function or a random terminal of the kind its place asks for (`Tree.randomFunction`,
`Tree.randomTerminal`), and a function's arguments are grown one after another
at the next depth, each of the kind the function declares for it.

* `full`: functions above the greatest depth, terminals at it, so every leaf
  lies at the greatest depth;
* `grow p`: functions above the least depth, terminals at the greatest, and
  in between a terminal with probability `p`.

When the tree offers no node of the kind asked for, growing fails with the
fault given for it.
-/

namespace Evolver

/-- How a random tree is grown. -/
inductive Growth where
  | full
  | grow (pPrune : Value)
deriving Inhabited

namespace Tree

/-- Whether the node at `depth` is a function, drawing for it when the
growth leaves it to chance. -/
def wantsFunction (how : Growth) (lo hi depth : Int) : Draw Bool := do
  match how with
  | .full => pure (depth < hi)
  | .grow p =>
    if depth < lo then pure true
    else if depth ≥ hi then pure false
    else
      let r ← Draw.random
      pure !(← Draw.ofExcept (Value.compare .lt (.float r) p))

/-- The prefix nodes of a subtree of kind `k` grown at `depth`, with `fuel`
bounding the depth still to grow. -/
def growAt (t : Tree) (how : Growth) (lo hi : Int) (noNode : Fault) :
    Nat → Int → Option Kind → Draw (List Node)
  | 0, _, _ => throw noNode
  | fuel + 1, depth, k => do
    if ← wantsFunction how lo hi depth then
      let some n ← t.randomFunction k | throw noNode
      let kids ← (slotKindsOf n).mapM fun kk => t.growAt how lo hi noNode fuel (depth + 1) kk
      pure (n :: kids.flatten)
    else
      let some n ← t.randomTerminal k | throw noNode
      pure [n]
where
  /-- The declared kinds of a function node's arguments. -/
  slotKindsOf (n : Node) : List (Option Kind) :=
    match n with
    | .func p => p.argKinds
    | .term _ _ => []

/-- The prefix nodes of a random tree of kind `k`, grown from `depth`. -/
def growFrom (t : Tree) (how : Growth) (lo hi : Int) (noNode : Fault) (depth : Int)
    (k : Option Kind) : Draw (List Node) :=
  t.growAt how lo hi noNode ((max lo hi - depth).toNat + 2) depth k

end Tree

/-- The fault of a tree that cannot be grown, naming the settings: the
terminal and function sets, the range of constants if any, and the depths. -/
def noNodeFault (terminals functions : String) (erc : Option String) (lo hi : Int) : Fault :=
  let ercInfo := match erc with
    | some r => "erc range (" ++ r ++ ") ,"
    | none => ""
  Fault.value s!"Could not generate node  due to a mismatch in terminals ({terminals}), functions ({functions}), {ercInfo} or init_depth (({lo}, {hi})) configuration."

end Evolver
