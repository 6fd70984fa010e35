import Evolver.Tree.Subtree
import Mathlib
/-!
# Prefix lists read against slots

A prefix list is read with a stack of open slots.  Each node fills the
innermost open slot, if it fits there, and opens its own argument slots in
front of the rest (`Tree.Layout.pending`).  A list *fills* a run of slots
(`Tree.Layout.Fills`) when reading it from them leaves nothing open: it is
then one complete subtree for each slot, in order.

Two layouts matter for program trees.  `Tree.Layout.shape` asks only that a
function node be a primitive of the tree's set and opens one slot per
argument, so `Tree.WellFormed` says that the nodes are one complete subtree.
`Tree.Layout.kinds` also asks that every node have the kind its slot
declares, so `Tree.WellTyped` says that the tree is well typed from its root
kind on; forgetting the kinds gives back the shape (`WellTyped.wellFormed`).

The laws used for subtrees: a reading splits at the end of any prefix of
slots (`Fills.split`), no complete reading is the beginning of a longer one
(`Fills.take_eq`), every position starts the subtree of an open slot
(`Fills.slot_at`), and a subtree may be replaced by any other that fills the
same slot (`fills_replace`).
-/

namespace Evolver
namespace Tree

/-- What a prefix list is read against: the slots a node opens for its
arguments, and whether a node may fill a slot. -/
structure Layout (σ : Type) where
  slots : Node → List σ
  fits : σ → Node → Bool

namespace Layout

variable {σ : Type} (L : Layout σ)

/-- The slots still open after reading a list from the open slots `ss`,
innermost first: each node fills the innermost slot and opens its own in
front; `none` once a node finds no slot or does not fit the one it finds. -/
def pending : List σ → List Node → Option (List σ)
  | ss, [] => some ss
  | [], _ :: _ => none
  | s :: ss, n :: ns => if L.fits s n then pending (L.slots n ++ ss) ns else none

/-- A list fills the slots `ss`: it is one complete subtree for each slot, in order. -/
def Fills (ss : List σ) (ns : List Node) : Prop := L.pending ss ns = some []

instance [DecidableEq σ] (ss : List σ) (ns : List Node) : Decidable (L.Fills ss ns) :=
  inferInstanceAs (Decidable (L.pending ss ns = some []))

variable {L}

@[simp] theorem pending_nil (ss : List σ) : L.pending ss [] = some ss := by
  cases ss <;> rfl

@[simp] theorem pending_nil_cons (n : Node) (ns : List Node) : L.pending [] (n :: ns) = none := rfl

theorem pending_cons_cons (s : σ) (ss : List σ) (n : Node) (ns : List Node) :
    L.pending (s :: ss) (n :: ns) = if L.fits s n then L.pending (L.slots n ++ ss) ns else none := rfl

/-- Reading two lists one after the other is reading the first, then the second from what is left open. -/
theorem pending_append (ss : List σ) (xs ys : List Node) :
    L.pending ss (xs ++ ys) = (L.pending ss xs).bind (L.pending · ys) := by
  induction xs generalizing ss with
  | nil => simp
  | cons n xs ih =>
    cases ss with
    | nil => rfl
    | cons s ss =>
      simp only [List.cons_append, pending_cons_cons]
      split <;> simp [ih]

theorem fills_nil_iff {ns : List Node} : L.Fills [] ns ↔ ns = [] := by
  cases ns <;> simp [Fills]

/-- **Slots that a list fills can be followed by more.**  Once `xs` fills
`ss`, the slots `ts` behind them are read from what follows, untouched. -/
theorem pending_frame {ss : List σ} {xs : List Node} (h : L.Fills ss xs) (ts : List σ)
    (ys : List Node) : L.pending (ss ++ ts) (xs ++ ys) = L.pending ts ys := by
  induction xs generalizing ss with
  | nil =>
    rw [Fills, pending_nil, Option.some.injEq] at h
    simp [h]
  | cons n xs ih =>
    cases ss with
    | nil => simp [Fills] at h
    | cons s ss =>
      rw [Fills, pending_cons_cons] at h
      split at h
      · rw [List.cons_append, List.cons_append, pending_cons_cons, if_pos ‹_›, ← List.append_assoc]
        exact ih h
      · cases h

theorem Fills.append {ss ts : List σ} {xs ys : List Node} (hx : L.Fills ss xs) (hy : L.Fills ts ys) :
    L.Fills (ss ++ ts) (xs ++ ys) := by
  rw [Fills, pending_frame hx]
  exact hy

/-- **A list that fills two runs of slots splits between them.** -/
theorem Fills.split {ss ts : List σ} {ns : List Node} (h : L.Fills (ss ++ ts) ns) :
    ∃ k, L.Fills ss (ns.take k) ∧ L.Fills ts (ns.drop k) := by
  induction ns generalizing ss with
  | nil =>
    rw [Fills, pending_nil, Option.some.injEq, List.append_eq_nil_iff] at h
    exact ⟨0, by simp [Fills, h.1], by simp [Fills, h.2]⟩
  | cons n ns ih =>
    cases ss with
    | nil => exact ⟨0, by simp [Fills], by simpa using h⟩
    | cons s ss =>
      rw [List.cons_append, Fills, pending_cons_cons] at h
      split at h
      · have h' : L.Fills ((L.slots n ++ ss) ++ ts) ns := by rw [List.append_assoc]; exact h
        obtain ⟨k, hk, hrest⟩ := ih h'
        refine ⟨k + 1, ?_, by simpa using hrest⟩
        rw [List.take_succ_cons, Fills, pending_cons_cons, if_pos ‹_›]
        exact hk
      · cases h

/-- **No complete reading is the beginning of a longer one.** -/
theorem Fills.eq_nil_of_append {ss : List σ} {xs ys : List Node} (hx : L.Fills ss xs)
    (h : L.Fills ss (xs ++ ys)) : ys = [] := by
  have h' := pending_frame hx [] ys
  rw [List.append_nil] at h'
  rw [Fills, h'] at h
  exact fills_nil_iff.mp h

theorem Fills.take_eq_of_le {ss : List σ} {ns : List Node} {k k' : Nat} (hle : k ≤ k')
    (h : L.Fills ss (ns.take k)) (h' : L.Fills ss (ns.take k')) : ns.take k = ns.take k' := by
  have hsplit : ns.take k' = ns.take k ++ (ns.drop k).take (k' - k) := by
    rw [← List.take_add, Nat.add_sub_cancel' hle]
  rw [hsplit] at h' ⊢
  rw [h.eq_nil_of_append h', List.append_nil]

/-- **The subtree filling a slot has one length.** -/
theorem Fills.take_eq {ss : List σ} {ns : List Node} {k k' : Nat} (h : L.Fills ss (ns.take k))
    (h' : L.Fills ss (ns.take k')) : ns.take k = ns.take k' := by
  rcases Nat.le_total k k' with hle | hle
  · exact h.take_eq_of_le hle h'
  · exact (h'.take_eq_of_le hle h).symm

/-- **Every position of a complete reading starts a subtree.**  The slots open
before position `i` begin with the slot of the node there; a prefix of the
rest fills that slot and what follows fills the others. -/
theorem Fills.slot_at {ss : List σ} {ns : List Node} (h : L.Fills ss ns) {i : Nat}
    (hi : i < ns.length) : ∃ s ts k, L.pending ss (ns.take i) = some (s :: ts) ∧
      L.Fills [s] ((ns.drop i).take k) ∧ L.Fills ts ((ns.drop i).drop k) := by
  have hall := h
  rw [Fills, ← List.take_append_drop i ns, pending_append] at hall
  obtain ⟨ps, hps, hrest⟩ := Option.bind_eq_some_iff.mp hall
  cases ps with
  | nil =>
    have : ns.drop i = [] := fills_nil_iff.mp hrest
    simp at this
    omega
  | cons s ts =>
    have hrest' : L.Fills ([s] ++ ts) (ns.drop i) := hrest
    obtain ⟨k, hk, hk'⟩ := hrest'.split
    exact ⟨s, ts, k, hps, hk, hk'⟩

/-- Every node of a list read without failure fits the slot it fills. -/
theorem pending_fits {ss ps : List σ} {ns : List Node} (h : L.pending ss ns = some ps) :
    ∀ x ∈ ns, ∃ s, L.fits s x = true := by
  induction ns generalizing ss with
  | nil => simp
  | cons n ns ih =>
    cases ss with
    | nil => simp at h
    | cons s ss =>
      rw [pending_cons_cons] at h
      split at h
      · intro x hx
        rcases List.mem_cons.mp hx with rfl | hx
        · exact ⟨s, ‹_›⟩
        · exact ih h x hx
      · cases h

/-- **Replacing a subtree by one that fills the same slot keeps the reading complete.** -/
theorem fills_replace {ss : List σ} {pre new post : List Node} {s : σ} {ts : List σ}
    (hpre : L.pending ss pre = some (s :: ts)) (hpost : L.Fills ts post) (hnew : L.Fills [s] new) :
    L.Fills ss (pre ++ new ++ post) := by
  rw [Fills, List.append_assoc, pending_append, hpre, Option.bind_some]
  exact hnew.append hpost

/-- The shape of a tree over the primitives `fs`: a function node is one of
them and opens one slot for each argument; a terminal opens none. -/
def shape (fs : List Primitive) : Layout Unit where
  slots n := List.replicate ((arityOf n).getD 0) ()
  fits _ n := match n with
    | .func p => fs.contains p
    | .term _ _ => true

/-- The kinds of a typed tree over `fs`: a node has the kind its slot asks
for, which is a kind and not none, and a function node opens a slot for each
argument with the argument's declared kind. -/
def kinds (fs : List Primitive) : Layout (Option Kind) where
  slots n := match n with
    | .func p => p.argKinds
    | .term _ _ => []
  fits k n := n.kind == k && k.isSome && (shape fs).fits () n

theorem argKinds_length (p : Primitive) : p.argKinds.length = p.arity := by
  cases p <;> rfl

/-- **A reading of kinds is a reading of shape.**  Forgetting the kinds of
the slots turns every reading against `kinds fs` into one against `shape fs`. -/
theorem pending_kinds_shape {fs : List Primitive} {ks ps : List (Option Kind)} {ns : List Node}
    (h : (kinds fs).pending ks ns = some ps) :
    (shape fs).pending (ks.map fun _ => ()) ns = some (ps.map fun _ => ()) := by
  induction ns generalizing ks with
  | nil =>
    rw [pending_nil, Option.some.injEq] at h
    simp [h]
  | cons n ns ih =>
    cases ks with
    | nil => simp at h
    | cons k ks =>
      rw [pending_cons_cons] at h
      split at h
      · rename_i hfit
        have hshape : (shape fs).fits () n = true := by
          simp only [kinds, Bool.and_eq_true] at hfit
          exact hfit.2
        have hslots : ((kinds fs).slots n).map (fun _ => ()) = (shape fs).slots n := by
          cases n with
          | func p => simp [kinds, shape, arityOf, Node.primitive?, List.map_const', argKinds_length]
          | term a k => rfl
        rw [List.map_cons, pending_cons_cons, if_pos hshape, ← hslots, ← List.map_append]
        exact ih h
      · cases h

theorem Fills.shape_of_kinds {fs : List Primitive} {ks : List (Option Kind)} {ns : List Node}
    (h : (kinds fs).Fills ks ns) : (shape fs).Fills (ks.map fun _ => ()) ns :=
  pending_kinds_shape h

end Layout

/-- A well-formed tree: its nodes are one complete subtree in prefix order,
and every function node is a primitive of its function set. -/
def WellFormed (t : Tree) : Prop := (Layout.shape t.functions).Fills [()] t.nodes

/-- A well-typed tree: every node has a kind, the first node has the root
kind, and the `i`-th argument of a function node has the kind its primitive
declares for argument `i`. -/
def WellTyped (t : Tree) : Prop := (Layout.kinds t.functions).Fills [t.rootKind] t.nodes

instance (t : Tree) : Decidable t.WellFormed :=
  inferInstanceAs (Decidable ((Layout.shape t.functions).Fills [()] t.nodes))

instance (t : Tree) : Decidable t.WellTyped :=
  inferInstanceAs (Decidable ((Layout.kinds t.functions).Fills [t.rootKind] t.nodes))

theorem WellTyped.wellFormed {t : Tree} (h : t.WellTyped) : t.WellFormed :=
  Layout.Fills.shape_of_kinds h

end Tree
end Evolver
