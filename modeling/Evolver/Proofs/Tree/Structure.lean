import Evolver.Proofs.Tree.Between
import Evolver.Tree.Execute
/-!
# The structure a prefix list encodes

A `Tree.Term` is a tree as a structure: a node above the subtrees of its
arguments.  Its nodes in prefix order (`Term.nodes`) are the lists trees
hold, and every list that fills one slot is the list of some structure
(`Term.exists_of_fills`).

A reading's stack machine evaluates that structure.  A structure shaped for
the reading's arities, followed by anything, is read as the recursive
evaluation of the structure (`Term.eval`), and exactly its own nodes are
used, whatever frames are open around it (`Term.readsAs`).  So each of the
depth, text and value readings, started where a subtree starts, ends with the
last node of that subtree; the depth of a tree is the height of its
structure, and its value on named inputs that name exactly its variables is
the value of its structure (`Tree.readings_follow_structure`).
-/

namespace Evolver

namespace Tree

/-- A tree as its structure: a node above the subtrees of its arguments. -/
inductive Term where
  | node (n : Node) (args : List Term)

namespace Term

mutual

/-- The nodes of a structure in prefix order. -/
def nodes : Term → List Node
  | .node n args => n :: nodesOf args

/-- The nodes of structures one after another. -/
def nodesOf : List Term → List Node
  | [] => []
  | a :: as => a.nodes ++ nodesOf as

end

/-- A structure shaped for the arities `arity`: each node has as many
subtrees as it takes arguments, none for a leaf. -/
inductive Shaped (arity : Node → Option Nat) : Term → Prop
  | node {n : Node} {args : List Term} : (arity n).getD 0 = args.length → (∀ a ∈ args, Shaped arity a) →
      Shaped arity (.node n args)

section Eval

variable {α : Type} (r : Reading α)

mutual

/-- The value of a structure: a node without subtrees is an atom of the
reading; any other node combines the values of its subtrees, read left to
right. -/
def eval : Term → Except Fault α
  | .node n [] => r.atom n
  | .node n (a :: as) => do r.close n (← evalList (a :: as))

/-- The values of structures, left to right; the first failure stops. -/
def evalList : List Term → Except Fault (List α)
  | [] => pure []
  | a :: as => do
    let v ← eval a
    let vs ← evalList as
    pure (v :: vs)

end

end Eval

mutual

/-- The height of a structure: the length of its longest path from the root
to a leaf. -/
def height : Term → Nat
  | .node _ [] => 0
  | .node _ (a :: as) => 1 + maxHeight (a :: as)

/-- The greatest height of structures; zero for none. -/
def maxHeight : List Term → Nat
  | [] => 0
  | a :: as => max a.height (maxHeight as)

end

end Term

end Tree

namespace Reading

variable {α : Type} (r : Reading α)

/-- Reading on once a subtree gave the value `a`, with `used` nodes read:
the value is handed to the open frames `st`, and reading stops when none is
left open. -/
def resume (rest : List Node) (st : List (Frame α)) (used : Nat) (a : α) : Except Fault (α × Nat) := do
  match ← r.settle st a with
  | (some v, _) => pure (v, used)
  | (none, st') => r.go rest st' used

/-- `ns` is read as `x`: read with any frames open and anything after it, it
is read into `x`, handed to the frames once its last node is read. -/
def ReadsAs (ns : List Node) (x : Except Fault α) : Prop :=
  ∀ (rest : List Node) (st : List (Frame α)) (used : Nat),
    r.go (ns ++ rest) st used = x >>= r.resume rest st (used + ns.length)

/-- The last argument closes its function; an earlier one leaves the
function waiting for one argument fewer. -/
theorem resume_frame (rest : List Node) (n : Node) (left : Nat) (ds : List α) (st : List (Frame α))
    (used : Nat) (a : α) : r.resume rest (⟨n, left, ds⟩ :: st) used a =
      if left ≤ 1 then r.close n (a :: ds).reverse >>= r.resume rest st used
      else r.go rest (⟨n, left - 1, a :: ds⟩ :: st) used := by
  unfold resume
  rw [settle]
  split
  · rw [bind_assoc]
  · rfl

/-- With no frame open, reading stops with the value of the subtree. -/
theorem resume_nil (rest : List Node) (used : Nat) (a : α) : r.resume rest [] used a = pure (a, used) := rfl

end Reading

namespace Tree

namespace Term

variable {α : Type} (r : Reading α)

/-- A shaped node without subtrees takes no argument. -/
theorem arity_of_shaped_leaf {n : Node} (h : Shaped r.arity (.node n [])) : r.arity n = none ∨ r.arity n = some 0 := by
  cases h with
  | node harity _ =>
    cases hn : r.arity n with
    | none => exact .inl rfl
    | some k =>
      rw [hn] at harity
      exact .inr (by simpa using harity)

mutual

/-- **A structure is read as its value, using exactly its own nodes.** -/
theorem readsAs : ∀ T : Term, T.Shaped r.arity → r.ReadsAs T.nodes (T.eval r)
  | .node n [], h => by
    intro rest st used
    -- a node without arguments is an atom, handed at once to the frames
    have hleaf : ∀ k, r.arity n ≠ some (k + 1) := by
      rcases arity_of_shaped_leaf r h with hn | hn <;> simp [hn]
    rw [nodes, nodesOf, List.cons_append, List.nil_append, Reading.go]
    split
    · rename_i k hk
      exact absurd hk (hleaf k)
    · rfl
  | .node n (a :: as), h => by
    intro rest st used
    cases h with
    | node harity hargs =>
    -- a function opens a frame for its arguments, which then close it
    have hn : r.arity n = some (as.length + 1) := by
      cases hr : r.arity n with
      | none => rw [hr] at harity; simp at harity
      | some k => rw [hr] at harity; simpa using harity
    rw [nodes, List.cons_append, Reading.go, hn]
    dsimp only
    rw [show as.length + 1 = (a :: as).length from rfl, readsAs_args n (a :: as) (List.cons_ne_nil a as) hargs,
      eval, List.length_cons, Nat.add_assoc, Nat.add_comm 1]
    simp only [List.reverse_nil, List.nil_append]
    rw [bind_assoc]

/-- **The arguments of a function are read into its frame.**  Shaped
structures read one after another into a frame still waiting for as many
arguments, with the values `ds` so far, close it with all the values. -/
theorem readsAs_args (n : Node) : ∀ (args : List Term), args ≠ [] → (∀ a ∈ args, a.Shaped r.arity) →
    ∀ (ds : List α) (rest : List Node) (st : List (Frame α)) (used : Nat),
      r.go (nodesOf args ++ rest) (⟨n, args.length, ds⟩ :: st) used =
        evalList r args >>= fun vs => r.close n (ds.reverse ++ vs) >>= r.resume rest st (used + (nodesOf args).length)
  | [], hne, _ => absurd rfl hne
  | [a], _, hargs => fun ds rest st used => by
    -- the last argument closes the frame
    rw [nodesOf, nodesOf, List.append_nil, readsAs a (hargs a List.mem_cons_self)]
    simp only [evalList, bind_assoc, pure_bind]
    congr 1
    funext v
    rw [Reading.resume_frame, if_pos (show [a].length ≤ 1 from Nat.le_refl 1), List.reverse_cons]
  | a :: a' :: as, _, hargs => fun ds rest st used => by
    -- an earlier argument leaves the frame waiting for the rest
    have ha := readsAs a (hargs a List.mem_cons_self)
    have hrest := readsAs_args n (a' :: as) (List.cons_ne_nil a' as)
      (fun b hb => hargs b (List.mem_cons_of_mem a hb))
    rw [nodesOf, List.append_assoc, ha, evalList.eq_2 r a (a' :: as)]
    simp only [bind_assoc, pure_bind]
    congr 1
    funext v
    rw [Reading.resume_frame, if_neg (by simp), show (a :: a' :: as).length - 1 = (a' :: as).length from rfl, hrest,
      List.length_append, Nat.add_assoc]
    simp only [List.reverse_cons, List.append_assoc, List.singleton_append]

end

/-! ### Heights -/

/-- Folding the heights of structures with `max` from `acc` gives the
greater of `acc` and their greatest height. -/
theorem foldl_max_heights : ∀ (as : List Term) (acc : Nat), (as.map height).foldl max acc = max acc (maxHeight as)
  | [], acc => by simp [maxHeight]
  | a :: as, acc => by rw [List.map_cons, List.foldl_cons, foldl_max_heights as, maxHeight, Nat.max_assoc]

/-- A shaped node without subtrees is a terminal: every primitive takes an
argument. -/
theorem arityOf_shaped_leaf {n : Node} (h : Shaped arityOf (.node n [])) : arityOf n = none := by
  rcases arity_of_shaped_leaf depthReading h with hn | hn
  · exact hn
  · cases n with
    | func p =>
      have := p.arity_pos
      change arityOf (.func p) = some 0 at hn
      simp only [arityOf, Node.primitive?, Option.map_some, Option.some.injEq] at hn
      omega
    | term a k => rfl

mutual

/-- **The depth reading of a structure is its height.** -/
theorem eval_depthReading : ∀ T : Term, T.Shaped arityOf → T.eval depthReading = .ok T.height
  | .node n [], h => by
    rw [eval, Reading.atom, show depthReading.arity n = none from arityOf_shaped_leaf h, height]
    rfl
  | .node n (a :: as), h => by
    cases h with
    | node _ hargs =>
    rw [eval, evalList_depthReading (a :: as) hargs, height]
    show (pure (1 + ((a :: as).map height).foldl max 0) : Except Fault Nat) = _
    rw [foldl_max_heights, Nat.zero_max]
    rfl

/-- The depth readings of structures are their heights. -/
theorem evalList_depthReading : ∀ args : List Term, (∀ a ∈ args, a.Shaped arityOf) →
    evalList depthReading args = .ok (args.map height)
  | [], _ => rfl
  | a :: as, h => by
    rw [evalList, eval_depthReading a (h a List.mem_cons_self),
      evalList_depthReading as fun b hb => h b (List.mem_cons_of_mem a hb)]
    rfl

end

/-! ### Every complete list has a structure -/

/-- **Every list that fills slots is the list of shaped structures**, one
structure for each slot. -/
theorem exists_of_fills {fs : List Primitive} (ns : List Node) : ∀ (k : Nat),
    (Layout.shape fs).Fills (List.replicate k ()) ns →
      ∃ Ts : List Term, Ts.length = k ∧ (∀ T ∈ Ts, T.Shaped arityOf) ∧ nodesOf Ts = ns := by
  -- by strong induction on the length: the first node's subtrees and the slots after them
  -- each fill a shorter list
  induction hlen : ns.length using Nat.strongRecOn generalizing ns with
  | ind len ih =>
  intro k h
  cases k with
  | zero =>
    obtain rfl := Layout.fills_nil_iff.1 h
    exact ⟨[], rfl, by simp, rfl⟩
  | succ k =>
    cases ns with
    | nil => simp [Layout.Fills] at h
    | cons n ns =>
      rw [List.replicate_succ, Layout.Fills, Layout.pending_cons_cons] at h
      split at h
      · have hslots : (Layout.shape fs).slots n = List.replicate ((arityOf n).getD 0) () := rfl
        rw [hslots] at h
        obtain ⟨j, hj₁, hj₂⟩ := Layout.Fills.split h
        have hlen₁ : (ns.take j).length < len := by
          rw [← hlen, List.length_cons]
          exact Nat.lt_succ_of_le (List.length_take_le' j ns)
        have hlen₂ : (ns.drop j).length < len := by
          rw [← hlen, List.length_cons, List.length_drop]
          omega
        obtain ⟨args, hargs, hshaped, hnodes⟩ := ih _ hlen₁ (ns.take j) rfl _ hj₁
        obtain ⟨Ts, hTs, hshapedTs, hnodesTs⟩ := ih _ hlen₂ (ns.drop j) rfl k hj₂
        refine ⟨.node n args :: Ts, by rw [List.length_cons, hTs], fun T hT => ?_, ?_⟩
        · rcases List.mem_cons.1 hT with rfl | hT
          · exact .node hargs.symm hshaped
          · exact hshapedTs T hT
        · rw [nodesOf, nodes, hnodes, hnodesTs, List.cons_append, List.take_append_drop]
      · cases h

/-- One complete subtree is the list of one shaped structure. -/
theorem exists_of_fills_one {fs : List Primitive} {sl : List Node} (h : (Layout.shape fs).Fills [()] sl) :
    ∃ T : Term, T.Shaped arityOf ∧ T.nodes = sl := by
  obtain ⟨Ts, hlen, hshaped, hnodes⟩ := exists_of_fills sl 1 h
  match Ts, hlen with
  | [T], _ => exact ⟨T, hshaped T List.mem_cons_self, by rw [← hnodes, nodesOf, nodesOf, List.append_nil]⟩

end Term

open Term

/-! ### The readings of a tree -/

/-- The depth of a tree is the height of its structure. -/
theorem depth_eq_height {t : Tree} {T : Term} (hT : T.Shaped arityOf) (hnodes : T.nodes = t.nodes) :
    t.depth = .ok T.height := by
  have hread := readsAs depthReading T hT [] [] 0
  rw [List.append_nil, eval_depthReading T hT] at hread
  simp only [depth, Reading.read, ← hnodes, hread]
  rfl

/-- A tree run on inputs that name exactly the variables of its terminal
set is worth the value of its structure. -/
theorem run_eq_eval {t : Tree} {T : Term} (hT : T.Shaped arityOf) (hnodes : T.nodes = t.nodes)
    {inputs : List (String × Value)}
    (hnamed : ∀ q ∈ inputs, ∃ e ∈ t.terminals, sameKey e.key.value (.str q.1) = true)
    (hgiven : ∀ e ∈ t.terminals, given inputs e.key.value = true) :
    t.run inputs = T.eval (runReading inputs) := by
  have hread := readsAs (runReading inputs) T hT [] [] 0
  rw [List.append_nil] at hread
  have hne : t.nodes.isEmpty = false := by
    obtain ⟨n, args⟩ := T
    rw [← hnodes]
    rfl
  -- no variable is missing
  have hmissing : (t.terminals.filter fun e => !given inputs e.key.value) = [] := by
    rw [List.filter_eq_nil_iff]
    intro e he
    simp [hgiven e he]
  simp only [run, hne, hmissing]
  -- and no input is foreign
  rw [List.filter_eq_nil_iff.2 ?_]
  · simp only [Reading.read, ← hnodes, hread]
    cases T.eval (runReading inputs) <;> rfl
  · rintro ⟨name, v⟩ hq
    obtain ⟨e, he, hsame⟩ := hnamed _ hq
    simpa using ⟨e, he, hsame⟩

/-- **Each reading of a tree reads exactly one subtree, as its structure.**
Every subtree `sl` of a tree, at any position, is the list of a shaped
structure `T` (each function over as many subtrees as its primitive takes,
one or more).  The depth, text and value readings started on it, with any
frames open and anything after it, read exactly its nodes, so that a reading
started at position `p` goes on at `p + sl.length`, and they hand on the
height, the text and the value of `T`.  In a well-formed tree the subtree at
the front is the whole tree: its depth is the height of its structure, and
its value on inputs that name exactly the variables of its terminal set is
the value of its structure, each terminal worth the input it names, or
itself. -/
theorem readings_follow_structure {t : Tree} (hw : t.WellFormed) :
    (∀ p sl, t.SubtreeAt p sl → ∃ T : Term, T.Shaped arityOf ∧ T.nodes = sl ∧
      depthReading.ReadsAs sl (.ok T.height) ∧ textReading.ReadsAs sl (T.eval textReading) ∧
      ∀ inputs, (runReading inputs).ReadsAs sl (T.eval (runReading inputs))) ∧
    ∃ T : Term, T.Shaped arityOf ∧ T.nodes = t.nodes ∧ t.depth = .ok T.height ∧
      ∀ inputs : List (String × Value), (∀ q ∈ inputs, ∃ e ∈ t.terminals, sameKey e.key.value (.str q.1) = true) →
        (∀ e ∈ t.terminals, given inputs e.key.value = true) → t.run inputs = T.eval (runReading inputs) := by
  refine ⟨fun p sl h => ?_, ?_⟩
  · obtain ⟨T, hT, rfl⟩ := exists_of_fills_one h.2
    have hdepth := readsAs depthReading T hT
    rw [eval_depthReading T hT] at hdepth
    exact ⟨T, hT, rfl, hdepth, readsAs textReading T hT, fun inputs => readsAs (runReading inputs) T hT⟩
  · obtain ⟨T, hT, hnodes⟩ := exists_of_fills_one hw
    exact ⟨T, hT, hnodes, depth_eq_height hT hnodes, fun _ hnamed hgiven => run_eq_eval hT hnodes hnamed hgiven⟩

/-- `f_mul(f_mul(x, x), x)` over `f_mul`, `x` and `y`. -/
def mulMulXTree : Tree := { mulXY with nodes := mulMulX }

theorem readings_follow_structure_mulMulX :
    mulMulXTree.WellFormed ∧
    (∀ p sl, mulMulXTree.SubtreeAt p sl → ∃ T : Term, T.Shaped arityOf ∧ T.nodes = sl ∧
      depthReading.ReadsAs sl (.ok T.height) ∧ textReading.ReadsAs sl (T.eval textReading) ∧
      ∀ inputs, (runReading inputs).ReadsAs sl (T.eval (runReading inputs))) ∧
    ∃ T : Term, T.Shaped arityOf ∧ T.nodes = mulMulXTree.nodes ∧ mulMulXTree.depth = .ok T.height ∧
      ∀ inputs : List (String × Value),
        (∀ q ∈ inputs, ∃ e ∈ mulMulXTree.terminals, sameKey e.key.value (.str q.1) = true) →
        (∀ e ∈ mulMulXTree.terminals, given inputs e.key.value = true) →
          mulMulXTree.run inputs = T.eval (runReading inputs) :=
  ⟨by decide, readings_follow_structure (by decide)⟩

/-- **A run needs every variable.**  The tree of the variable `x` alone,
over the terminal set of `x` and `y`, has a structure worth `1` where `x` is
`1`; run on `x = 1` alone, it fails, naming the list of `y` as missing. -/
theorem run_fails_on_missing_variable :
    ({ mulXY with nodes := [xLeaf] } : Tree).WellFormed ∧ (Term.node xLeaf []).nodes = [xLeaf] ∧
      (Term.node xLeaf []).eval (runReading [("x", .int 1)]) = .ok (.int 1) ∧
      ({ mulXY with nodes := [xLeaf] } : Tree).run [("x", .int 1)] =
        .error (Fault.value ("Missing variable terminals as execute kwargs: " ++ (Value.list [.str "y"]).written)) :=
  ⟨by decide, rfl, rfl, rfl⟩

end Tree

end Evolver
