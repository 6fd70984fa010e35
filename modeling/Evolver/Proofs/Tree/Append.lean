import Evolver.Proofs.Tree.Prefix
/-!
# Appending a node to a prefix list

`Tree.add` judges a new node by the stack that `openFrames` keeps while it
walks the list: the function nodes still reading an argument, innermost
first, each with the number of arguments it still needs, the one it is
reading included.  That stack is the reading of the list against the
declared kinds alone (`Tree.Layout.hints`): the kinds of the argument slots
left open are, innermost first, the rest of the innermost frame's arguments
and, for each frame around it, the arguments after the one it is reading
(`openFrames_pending`).  A leaf closes frames as `popFrames` does
(`popFrames_hints`), a function node opens one.

What `Tree.add` asks of that stack is not that the new node fit the slot it
would fill.  It walks the open functions from the innermost outward and asks
that the argument each one reads have the kind of the function around it,
and that the argument the outermost reads have the kind of the new node
(`chainAccepts_iff`): the path of open functions is checked upside down, the
new node at its foot.  An empty list takes any node, whatever the root kind,
and a complete tree takes none (`add_checks_open_path`).
-/

namespace Evolver
namespace Tree

/-- The argument a frame of `openFrames` is reading: the arity of its
function less the arguments it still needs. -/
def nextArg (fr : Node × Nat) : Nat := fr.1.primitive?.elim 0 Primitive.arity - fr.2

/-- The declared kind of the argument a frame is reading. -/
def nextHint (fr : Node × Nat) : Option Kind := slotKind fr.1 (nextArg fr)

/-- The declared kinds of the arguments of a node; none for a terminal. -/
def argHints (n : Node) : List (Option Kind) := n.primitive?.elim [] Primitive.argKinds

/-- A frame of `openFrames`: a function node with at least one and at most
all of its arguments still to read. -/
def OpenFrame (fr : Node × Nat) : Prop := ∃ p, fr.1 = .func p ∧ 0 < fr.2 ∧ fr.2 ≤ p.arity

/-- The kinds of the slots a stack of frames has open behind the argument
each frame is reading. -/
def outerHints (st : List (Node × Nat)) : List (Option Kind) :=
  st.flatMap fun fr => (argHints fr.1).drop (nextArg fr + 1)

/-- The kinds of the open argument slots of a stack of frames, innermost
first: the innermost frame's from the argument it is reading on, each outer
frame's from the argument after it, since the one it reads holds the frames
inside it. -/
def openHints : List (Node × Nat) → List (Option Kind)
  | [] => []
  | fr :: st => (argHints fr.1).drop (nextArg fr) ++ outerHints st

namespace Layout

/-- Reading against the declared kinds alone: a function node opens a slot
of its declared kind for each argument, and every node fits every slot. -/
def hints : Layout (Option Kind) where
  slots := argHints
  fits _ _ := true

end Layout

theorem argHints_length (n : Node) : (argHints n).length = (arityOf n).getD 0 := by
  cases n with
  | func p => simp [argHints, arityOf, Node.primitive?, Layout.argKinds_length]
  | term a k => rfl

/-- The argument a frame reads is the head of what it still has open. -/
theorem OpenFrame.drop_nextArg {fr : Node × Nat} (h : OpenFrame fr) :
    (argHints fr.1).drop (nextArg fr) = nextHint fr :: (argHints fr.1).drop (nextArg fr + 1) := by
  obtain ⟨p, hp, hpos, hle⟩ := h
  have hlt : nextArg fr < p.arity := by
    simp only [nextArg, hp, Node.primitive?, Option.elim]
    omega
  have hlen : nextArg fr < (argHints fr.1).length := by
    rw [argHints_length, hp]
    exact hlt
  rw [List.drop_eq_getElem_cons hlen]
  congr 1
  simp only [argHints, nextHint, slotKind, hp, Node.primitive?, Option.elim, Primitive.argKinds,
    List.getElem_dropLast, List.getD_eq_getElem?_getD]
  rw [List.getElem?_eq_getElem, Option.getD_some]

theorem openHints_cons {fr : Node × Nat} (h : OpenFrame fr) (st : List (Node × Nat)) :
    openHints (fr :: st) = nextHint fr :: outerHints (fr :: st) := by
  simp [openHints, outerHints, h.drop_nextArg]

/-- **A leaf fills the argument the innermost frame reads.**  The slots open
after it are those behind that argument: what the frames `popFrames` keeps
still have open, or nothing when it closes them all. -/
theorem popFrames_hints : ∀ {st : List (Node × Nat)}, (∀ fr ∈ st, OpenFrame fr) →
    (popFrames st).elim [] openHints = outerHints st
  | [], _ => rfl
  | (f, k) :: st, hst => by
    obtain ⟨p, hp, hpos, hle⟩ := hst (f, k) List.mem_cons_self
    dsimp only at hp hpos hle
    have hlen : (argHints f).length = p.arity := by
      rw [argHints_length, hp]
      rfl
    have hnext : nextArg (f, k) = p.arity - k := by
      simp [nextArg, hp, Node.primitive?]
    by_cases hk : k ≤ 1
    · -- the frame reads its last argument: it closes, and the leaf fills the frame around it
      have hdrop : (argHints f).drop (nextArg (f, k) + 1) = [] :=
        List.drop_eq_nil_of_le (by omega)
      rw [popFrames, if_pos hk, popFrames_hints fun fr h => hst fr (List.mem_cons_of_mem _ h)]
      simp [outerHints, hdrop]
    · have hnext' : nextArg (f, k - 1) = nextArg (f, k) + 1 := by
        simp [nextArg, hp, Node.primitive?]
        omega
      rw [popFrames, if_neg hk]
      simp [openHints, outerHints, hnext']

theorem popFrames_open : ∀ {st st' : List (Node × Nat)}, (∀ fr ∈ st, OpenFrame fr) →
    popFrames st = some st' → st' ≠ [] ∧ ∀ fr ∈ st', OpenFrame fr
  | [], _, _, h => by cases h
  | (f, k) :: st, st', hst, h => by
    rw [popFrames] at h
    split at h
    · exact popFrames_open (fun fr hm => hst fr (List.mem_cons_of_mem _ hm)) h
    · cases h
      obtain ⟨p, hp, -, hle⟩ := hst (f, k) List.mem_cons_self
      refine ⟨List.cons_ne_nil _ _, fun fr hm => ?_⟩
      rcases List.mem_cons.mp hm with rfl | hm
      · exact ⟨p, hp, by omega, by omega⟩
      · exact hst fr (List.mem_cons_of_mem _ hm)

theorem openHints_ne_nil {st : List (Node × Nat)} (hst : ∀ fr ∈ st, OpenFrame fr) (hne : st ≠ []) :
    openHints st ≠ [] := by
  obtain ⟨fr, st, rfl⟩ := List.exists_cons_of_ne_nil hne
  rw [openHints_cons (hst fr List.mem_cons_self)]
  exact List.cons_ne_nil _ _

/-- A node that opens no frame opens no slot. -/
theorem argHints_of_leaf {n : Node} (h : ∀ k, arityOf n ≠ some (k + 1)) : argHints n = [] := by
  apply List.eq_nil_of_length_eq_zero
  rw [argHints_length]
  cases hn : arityOf n with
  | none => rfl
  | some k =>
    cases k with
    | zero => rfl
    | succ k => exact absurd hn (h k)

/-- **The stack of `openFrames` is the reading against the declared kinds.**
Walking a list from a stack of frames leaves the frames whose open slots are
exactly the slots the reading leaves open; it leaves no frame only when the
reading leaves no slot. -/
theorem openFrames_pending : ∀ (ns : List Node) {st : List (Node × Nat)} {ps : List (Option Kind)},
    (∀ fr ∈ st, OpenFrame fr) → Layout.hints.pending (openHints st) ns = some ps →
    (openFrames arityOf ns st = none → ps = []) ∧
      ∀ st', openFrames arityOf ns st = some st' →
        st' ≠ [] ∧ (∀ fr ∈ st', OpenFrame fr) ∧ openHints st' = ps
  | [], st, ps, hst, h => by
    rw [Layout.pending_nil, Option.some.injEq] at h
    subst h
    cases st with
    | nil => exact ⟨fun _ => rfl, fun st' h => by simp [openFrames] at h⟩
    | cons fr st =>
      refine ⟨fun h => by simp [openFrames] at h, fun st' h => ?_⟩
      simp only [openFrames, List.isEmpty_cons, Bool.false_eq_true, if_false, Option.some.injEq] at h
      subst h
      exact ⟨List.cons_ne_nil _ _, hst, rfl⟩
  | n :: ns, st, ps, hst, h => by
    cases st with
    | nil => simp [openHints] at h
    | cons fr st =>
      rw [openHints_cons (hst fr List.mem_cons_self), Layout.pending_cons_cons] at h
      simp only [Layout.hints, if_true] at h
      rw [openFrames]
      split
      · -- a function node opens a frame reading its first argument
        rename_i k hk
        obtain ⟨p, rfl⟩ : ∃ p, n = .func p := by
          cases n with
          | func p => exact ⟨p, rfl⟩
          | term a k' => cases hk
        have harity : p.arity = k + 1 := by simpa [arityOf, Node.primitive?] using hk
        have hopen : OpenFrame (.func p, k + 1) := ⟨p, rfl, by omega, by omega⟩
        have hhints : openHints ((.func p, k + 1) :: fr :: st) = argHints (.func p) ++ outerHints (fr :: st) := by
          simp [openHints, nextArg, Node.primitive?, harity]
        refine openFrames_pending ns (fun x hx => ?_) (by rw [hhints]; exact h)
        rcases List.mem_cons.mp hx with rfl | hx
        · exact hopen
        · exact hst x hx
      · -- a leaf fills the argument the innermost frame reads
        rename_i hleaf
        rw [argHints_of_leaf hleaf, List.nil_append] at h
        have hpop := popFrames_hints hst
        cases hp : popFrames (fr :: st) with
        | none =>
          rw [hp, Option.elim_none] at hpop
          rw [← hpop] at h
          cases ns with
          | nil => simp at h; exact ⟨fun _ => h, fun st' h' => by simp at h'⟩
          | cons m ns => simp at h
        | some st' =>
          rw [hp, Option.elim_some] at hpop
          rw [← hpop] at h
          exact openFrames_pending ns (popFrames_open hst hp).2 h

/-- The walk from the root: `openFrames` from no frame reads the list as the
hints do from a slot of any kind. -/
theorem openFrames_root {ns : List Node} {k : Option Kind} {ps : List (Option Kind)}
    (hne : ns ≠ []) (h : Layout.hints.pending [k] ns = some ps) :
    (openFrames arityOf ns [] = none → ps = []) ∧
      ∀ st', openFrames arityOf ns [] = some st' →
        st' ≠ [] ∧ (∀ fr ∈ st', OpenFrame fr) ∧ openHints st' = ps := by
  obtain ⟨n, ns, rfl⟩ := List.exists_cons_of_ne_nil hne
  rw [Layout.pending_cons_cons] at h
  simp only [Layout.hints, if_true, List.append_nil] at h
  rw [openFrames]
  split
  · rename_i j hj
    obtain ⟨p, rfl⟩ : ∃ p, n = .func p := by
      cases n with
      | func p => exact ⟨p, rfl⟩
      | term a k' => cases hj
    have harity : p.arity = j + 1 := by simpa [arityOf, Node.primitive?] using hj
    have hhints : openHints [(.func p, j + 1)] = argHints (.func p) := by
      simp [openHints, outerHints, nextArg, Node.primitive?, harity]
    refine openFrames_pending ns (fun x hx => ?_) (by rw [hhints]; exact h)
    rw [List.mem_singleton.mp hx]
    exact ⟨p, rfl, by omega, by omega⟩
  · rename_i hleaf
    rw [argHints_of_leaf hleaf] at h
    simp only [popFrames]
    cases ns with
    | nil => simp at h; exact ⟨fun _ => h, fun st' h' => by simp at h'⟩
    | cons m ns => simp at h

/-- The reading of a complete tree against its shape is also complete
against the declared kinds: both open one slot per argument. -/
theorem pending_shape_hints {fs : List Primitive} : ∀ {us : List Unit} {ks : List (Option Kind)}
    {ns : List Node} {ps : List Unit}, us.length = ks.length →
    (Layout.shape fs).pending us ns = some ps → ∃ qs, Layout.hints.pending ks ns = some qs ∧ qs.length = ps.length
  | us, ks, [], ps, hlen, h => by
    rw [Layout.pending_nil, Option.some.injEq] at h
    exact ⟨ks, Layout.pending_nil ks, h ▸ hlen.symm⟩
  | [], ks, n :: ns, ps, _, h => by simp at h
  | u :: us, [], n :: ns, ps, hlen, _ => by simp at hlen
  | u :: us, k :: ks, n :: ns, ps, hlen, h => by
    rw [Layout.pending_cons_cons] at h
    split at h
    · have hlen' : ((Layout.shape fs).slots n ++ us).length = (argHints n ++ ks).length := by
        simp only [Layout.shape, List.length_append, List.length_replicate, argHints_length]
        simpa using hlen
      obtain ⟨qs, hqs, hq⟩ := pending_shape_hints hlen' h
      refine ⟨qs, ?_, hq⟩
      rw [Layout.pending_cons_cons]
      exact hqs
    · cases h

/-- The chain `chainAccepts` checks, written out: the argument each open
function reads has the kind of the function around it, and the argument the
outermost reads has the kind of the new node. -/
theorem chainAccepts_iff (n : Node) : ∀ fr : List (Node × Nat),
    chainAccepts fr n = true ↔
      fr.IsChain (fun a b => nextHint a = b.1.kind) ∧ ∀ l ∈ fr.getLast?, nextHint l = n.kind
  | [] => by simp [chainAccepts]
  | [(f, r)] => by simp [chainAccepts, nextHint, nextArg]
  | (f, r) :: (g, s) :: rest => by
    rw [chainAccepts, Bool.and_eq_true, chainAccepts_iff n ((g, s) :: rest), List.isChain_cons_cons,
      List.getLast?_cons_cons, beq_iff_eq]
    simp only [nextHint, nextArg, and_assoc]

/-- **What `add` takes.**  An empty list takes every node, whatever the root
kind.  A complete tree takes none.  A list still open, with slots of kinds
`k :: ks` left by the reading against the declared kinds, has a stack of open
functions whose open slots are those, `k` the one the innermost reads next;
it takes the new node exactly when the argument each open function reads has
the kind of the function around it and the argument the outermost reads has
the kind of the new node.  Otherwise `add` fails and names the node and the
list. -/
theorem add_checks_open_path (t : Tree) (n : Node) :
    (t.nodes = [] → t.add n = .ok { t with nodes := [n] }) ∧
    (t.WellFormed →
      t.add n = .error (Fault.value s!"Could not add node {n.text} to tree {Node.listText t.nodes}")) ∧
    ∀ k ks, t.nodes ≠ [] → Layout.hints.pending [t.rootKind] t.nodes = some (k :: ks) →
      ∃ fr, openFrames arityOf t.nodes [] = some fr ∧ openHints fr = k :: ks ∧
        ((fr.IsChain (fun a b => nextHint a = b.1.kind) ∧ ∀ l ∈ fr.getLast?, nextHint l = n.kind) →
          t.add n = .ok { t with nodes := t.nodes ++ [n] }) ∧
        (¬ (fr.IsChain (fun a b => nextHint a = b.1.kind) ∧ ∀ l ∈ fr.getLast?, nextHint l = n.kind) →
          t.add n = .error (Fault.value s!"Could not add node {n.text} to tree {Node.listText t.nodes}")) := by
  refine ⟨fun hnil => ?_, fun hwf => ?_, fun k ks hne h => ?_⟩
  · have hacc : t.accepts n = true := by simp [accepts, hnil]
    rw [add, if_pos hacc, hnil]
    rfl
  · -- a complete tree leaves no slot open, so the walk leaves no frame
    have hne : t.nodes ≠ [] := by
      intro hnil
      simp [WellFormed, Layout.Fills, hnil] at hwf
    obtain ⟨qs, hqs, hlen⟩ : ∃ qs, Layout.hints.pending [t.rootKind] t.nodes = some qs ∧
        qs.length = ([] : List Unit).length :=
      pending_shape_hints rfl hwf
    have hqs' : qs = [] := List.eq_nil_of_length_eq_zero hlen
    subst hqs'
    have hnone : openFrames arityOf t.nodes [] = none := by
      cases hst : openFrames arityOf t.nodes [] with
      | none => rfl
      | some st' =>
        obtain ⟨hne', hopen, hhints⟩ := (openFrames_root hne hqs).2 st' hst
        exact absurd hhints (openHints_ne_nil hopen hne')
    have hacc : t.accepts n = false := by simp [accepts, hne, hnone]
    rw [add, hacc]
    rfl
  · obtain ⟨hnone, hsome⟩ := openFrames_root hne h
    cases hst : openFrames arityOf t.nodes [] with
    | none => exact absurd (hnone hst) (List.cons_ne_nil _ _)
    | some fr =>
      obtain ⟨-, -, hhints⟩ := hsome fr hst
      refine ⟨fr, rfl, hhints, fun hc => ?_, fun hc => ?_⟩
      · have hacc : t.accepts n = true := by
          simp [accepts, hst, (chainAccepts_iff n fr).2 hc]
        rw [add, if_pos hacc]
        rfl
      · have hchain : chainAccepts fr n = false := by
          rw [← Bool.not_eq_true, chainAccepts_iff]
          exact hc
        have hacc : t.accepts n = false := by
          simp [accepts, hne, hst, hchain]
        rw [add, hacc]
        rfl


/-- `argmax2floats` whose first argument, `add2floats`, reads its own first
argument: the slot open next wants a float. -/
def argmaxOpen : Tree :=
  ⟨[.argmax2floats, .add2floats], [⟨⟨.str "x", .own 0, fun h => nomatch h⟩, some .float⟩], none,
    some .argmax, [.func .argmax2floats, .func .add2floats]⟩

/-- The float terminal `x`. -/
def floatX : Node := .term ⟨.str "x", .own 0, fun h => nomatch h⟩ (some .float)

/-- The open slot wants a float and the float `x` is refused, since
`add2floats` reads a float where `argmax2floats` gives an `argmax`; and an
empty list whose root must be a float takes the boolean constant `True`. -/
theorem add_checks_open_path_argmax :
    Layout.hints.pending [argmaxOpen.rootKind] argmaxOpen.nodes =
        some [some .float, some .float, some .float] ∧
      argmaxOpen.add floatX =
        .error (Fault.value "Could not add node x to tree [argmax2floats, add2floats]") ∧
      ({ argmaxOpen with rootKind := some .float, nodes := [] }).add (.term ⟨.bool true, .shared, fun _ => rfl⟩ (some .bool)) =
        .ok { argmaxOpen with rootKind := some .float, nodes := [.term ⟨.bool true, .shared, fun _ => rfl⟩ (some .bool)] } := by
  have hpend : Layout.hints.pending [argmaxOpen.rootKind] argmaxOpen.nodes =
      some [some .float, some .float, some .float] := rfl
  obtain ⟨-, -, hopen⟩ := add_checks_open_path argmaxOpen floatX
  obtain ⟨fr, hfr, -, -, hrefuse⟩ := hopen _ _ (List.cons_ne_nil _ _) hpend
  have hframes : openFrames arityOf argmaxOpen.nodes [] =
      some [(.func .add2floats, 2), (.func .argmax2floats, 2)] := rfl
  rw [hframes, Option.some.injEq] at hfr
  subst hfr
  refine ⟨hpend, ?_, (add_checks_open_path _ _).1 rfl⟩
  rw [hrefuse]
  · rfl
  · -- the chain breaks at once: `add2floats` reads a float, `argmax2floats` is an `argmax`
    rintro ⟨hchain, -⟩
    exact absurd (List.isChain_cons_cons.mp hchain).1 (by decide)

end Tree
end Evolver
