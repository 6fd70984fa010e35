import Evolver.Proofs.Tree.Prefix
/-!
# Subtrees found, read and replaced

Subtrees are found by node equality (`Node.same`), which is an equivalence:
the invariant of `Atom` makes every node equal to itself
(`Node.same_refl`).  So the first node equal to `n` is also the first node
equal to itself (`firstSame_getElem`), and a node other than the root is
found after the front (`firstSame_pos`).

A reading that follows the shape of a tree (`Reading.Follows`), such as the
slice reading of `Tree.subtreeEnd`, counts the subtrees it still needs
(`Reading.need`); with that count it reads exactly one complete subtree and
nothing after it (`Reading.Follows.go_fills`).  In a well-formed tree every
position starts one subtree (`Tree.SubtreeAt`, `WellFormed.exists_subtreeAt`,
`SubtreeAt.unique`), which is what `Tree.subtreeOf` answers for the first
node equal to the one asked for (`Tree.subtreeOf_eq`), and a replacement
splices the new nodes in place of the old subtree (`Tree.replace_eq`).

Splicing keeps what the tree was: any complete subtree may replace a
subtree of a well-formed tree (`WellFormed.splice`), and any subtree of the
same kind may replace one of a well-typed tree (`WellTyped.splice`).
-/

namespace Evolver

namespace Atom

theorem same_refl (a : Atom) : a.same a = true := by
  rcases a with ⟨v, home, hv⟩
  cases home with
  | own n => simp [same]
  | shared =>
    have hi := hv rfl
    cases v <;> simp_all [same, Value.sameAtom, Value.isInterned]

theorem sameAtom_comm (v w : Value) : v.sameAtom w = w.sameAtom v := by
  cases v <;> cases w <;> simp [Value.sameAtom, BEq.comm]

theorem sameAtom_trans {u v w : Value} (huv : u.sameAtom v = true) (hvw : v.sameAtom w = true) :
    u.sameAtom w = true := by
  cases u <;> cases v <;> cases w <;> simp_all [Value.sameAtom]

theorem same_comm (a b : Atom) : a.same b = b.same a := by
  rcases a with ⟨v, _ | m, _⟩ <;> rcases b with ⟨w, _ | n, _⟩ <;> simp [same, sameAtom_comm, BEq.comm]

theorem same_trans {a b c : Atom} (hab : a.same b = true) (hbc : b.same c = true) : a.same c = true := by
  rcases a with ⟨u, _ | l, _⟩ <;> rcases b with ⟨v, _ | m, _⟩ <;> rcases c with ⟨w, _ | n, _⟩ <;>
    simp only [same, beq_iff_eq] at hab hbc ⊢ <;> simp_all
  exact sameAtom_trans hab hbc

end Atom

namespace Node

theorem same_refl (n : Node) : n.same n = true := by
  cases n <;> simp [same, Atom.same_refl]

theorem same_comm (m n : Node) : m.same n = n.same m := by
  cases m <;> cases n <;> simp [same, Atom.same_comm, BEq.comm]

theorem same_trans {l m n : Node} (hlm : l.same m = true) (hmn : m.same n = true) :
    l.same n = true := by
  cases l <;> cases m <;> cases n <;> simp only [same, Bool.and_eq_true, beq_iff_eq] at hlm hmn ⊢
  case func.func.func => exact hlm.trans hmn
  case term.term.term => exact ⟨hlm.1.trans hmn.1, Atom.same_trans hlm.2 hmn.2⟩
  all_goals simp at hlm hmn

theorem kind_eq_of_same {m n : Node} (h : m.same n = true) : m.kind = n.kind := by
  cases m <;> cases n <;> simp_all [same, kind]

end Node

/-- A member of the list is found at the first node equal to it. -/
theorem firstSame_of_mem {ns : List Node} {n : Node} (h : n ∈ ns) : ∃ i, firstSame ns n = some i :=
  ⟨_, List.findIdx?_eq_some_of_exists ⟨n, h, Node.same_refl n⟩⟩

theorem firstSame_spec {ns : List Node} {n : Node} {i : Nat} (h : firstSame ns n = some i) :
    ∃ hi : i < ns.length, ns[i].same n = true ∧ ∀ j (hj : j < i), ns[j].same n = false := by
  obtain ⟨hi, hsame, hbefore⟩ := List.findIdx?_eq_some_iff_getElem.mp h
  exact ⟨hi, hsame, fun j hj => by simpa using hbefore j hj⟩

/-- **The node found for `n` is found for itself.**  Node equality is an
equivalence, so the first node equal to `n` is also the first equal to the
node at that position. -/
theorem firstSame_getElem {ns : List Node} {n : Node} {i : Nat} (h : firstSame ns n = some i)
    (hi : i < ns.length) : firstSame ns ns[i] = some i := by
  obtain ⟨_, hsame, hbefore⟩ := firstSame_spec h
  rw [firstSame, List.findIdx?_eq_some_iff_getElem]
  refine ⟨hi, Node.same_refl _, fun j hj hj' => ?_⟩
  have := Node.same_trans hj' hsame
  rw [hbefore j hj] at this
  cases this

/-- A node unequal to the first one is found after it. -/
theorem firstSame_pos {r : Node} {ns : List Node} {n : Node} {i : Nat}
    (h : firstSame (r :: ns) n = some i) (hr : n.same r = false) : 0 < i := by
  obtain ⟨_, hsame, -⟩ := firstSame_spec h
  rcases Nat.eq_zero_or_pos i with rfl | hpos
  · rw [List.getElem_cons_zero, Node.same_comm, hr] at hsame
    cases hsame
  · exact hpos

namespace Reading

/-- The number of subtrees still to read before the first is complete, with
the frames `st` open: those the innermost frame waits for, and those of
every frame around it but the one it will become. -/
def need {α : Type} : List (Frame α) → Nat
  | [] => 1
  | f :: st => f.left + need st - 1

theorem one_le_need {α : Type} : ∀ {st : List (Frame α)}, (∀ f ∈ st, 1 ≤ f.left) → 1 ≤ need st
  | [], _ => Nat.le_refl 1
  | f :: st, h => by
    have hst : ∀ g ∈ st, 1 ≤ g.left := fun g hg => h g (List.mem_cons_of_mem f hg)
    have := one_le_need hst
    have := h f List.mem_cons_self
    simp only [need]
    omega

/-- A reading that follows the shape of trees over `fs`: a primitive of `fs`
takes as many arguments as it has, and no leaf or combination fails. -/
structure Follows (r : Reading α) (fs : List Primitive) : Prop where
  arity : ∀ n, (Tree.Layout.shape fs).fits () n = true → r.arity n = Tree.arityOf n
  leaf : ∀ n, ∃ a, r.leaf n = pure a
  close : ∀ n args, ∃ a, r.close n args = pure a

variable {r : Reading α} {fs : List Primitive}

theorem Follows.atom (hr : r.Follows fs) (n : Node) : ∃ a, r.atom n = pure a := by
  unfold Reading.atom
  split
  · exact hr.close n []
  · exact hr.leaf n

/-- Closing frames that leave one subtree to read completes the reading. -/
theorem Follows.settle_done (hr : r.Follows fs) : ∀ {st : List (Frame α)} (a : α), (∀ f ∈ st, 1 ≤ f.left) →
    need st = 1 → ∃ v, r.settle st a = pure (some v, [])
  | [], a, _, _ => ⟨a, rfl⟩
  | f :: st, a, h, hneed => by
    have hst : ∀ g ∈ st, 1 ≤ g.left := fun g hg => h g (List.mem_cons_of_mem f hg)
    have h1 := one_le_need hst
    have hf := h f List.mem_cons_self
    simp only [need] at hneed
    obtain ⟨b, hb⟩ := hr.close f.node (a :: f.done).reverse
    rw [Reading.settle, if_pos (by omega), hb, pure_bind]
    exact Follows.settle_done hr b hst (by omega)

/-- Closing frames that leave more to read keeps frames open, one subtree fewer. -/
theorem Follows.settle_open (hr : r.Follows fs) : ∀ {st : List (Frame α)} (a : α), (∀ f ∈ st, 1 ≤ f.left) →
    2 ≤ need st → ∃ st', r.settle st a = pure (none, st') ∧
      (∀ f ∈ st', 1 ≤ f.left) ∧ need st' + 1 = need st
  | [], _, _, hneed => by simp [need] at hneed
  | f :: st, a, h, hneed => by
    have hst : ∀ g ∈ st, 1 ≤ g.left := fun g hg => h g (List.mem_cons_of_mem f hg)
    have h1 := one_le_need hst
    have hf := h f List.mem_cons_self
    simp only [need] at hneed ⊢
    by_cases hle : f.left ≤ 1
    · obtain ⟨b, hb⟩ := hr.close f.node (a :: f.done).reverse
      rw [Reading.settle, if_pos hle, hb, pure_bind]
      obtain ⟨st', hst', hopen, hneed'⟩ := Follows.settle_open hr b hst (by omega)
      exact ⟨st', hst', hopen, by omega⟩
    · rw [Reading.settle, if_neg hle]
      refine ⟨_, rfl, ?_, ?_⟩
      · intro g hg
        rcases List.mem_cons.mp hg with rfl | hg
        · simp only
          omega
        · exact hst g hg
      · simp only [need]
        omega

/-- **A reading that follows the shape reads exactly a complete subtree.**
With frames `st` open, a list that fills the subtrees they still need is read
to its end and no further, whatever follows it. -/
theorem Follows.go_fills (hr : r.Follows fs) : ∀ (sl rest : List Node) (st : List (Frame α)) (used : Nat),
    (∀ f ∈ st, 1 ≤ f.left) → (Tree.Layout.shape fs).Fills (List.replicate (need st) ()) sl →
    ∃ v, r.go (sl ++ rest) st used = pure (v, used + sl.length)
  | [], _, st, _, hopen, h => by
    have := one_le_need hopen
    simp [Tree.Layout.Fills] at h
    omega
  | n :: sl, rest, st, used, hopen, h => by
    have h1 := one_le_need hopen
    obtain ⟨c, hc⟩ : ∃ c, need st = c + 1 := ⟨need st - 1, by omega⟩
    rw [hc, List.replicate_succ, Tree.Layout.Fills, Tree.Layout.pending_cons_cons] at h
    split at h
    · rename_i hfit
      have hslots : (Tree.Layout.shape fs).slots n = List.replicate ((Tree.arityOf n).getD 0) () := rfl
      rw [List.cons_append, Reading.go, hr.arity n hfit]
      rw [hslots, List.replicate_append_replicate] at h
      -- a function node with arguments opens a frame; any other node closes frames
      split
      · rename_i k harity
        rw [harity] at h
        obtain ⟨v, hgo⟩ := Follows.go_fills hr sl rest (⟨n, k + 1, []⟩ :: st) (used + 1) (by
            intro g hg
            rcases List.mem_cons.mp hg with rfl | hg
            · simp
            · exact hopen g hg) (by
              simp only [need]
              rw [hc, show k + 1 + (c + 1) - 1 = k + 1 + c by omega]
              exact h)
        refine ⟨v, ?_⟩
        rw [hgo, List.length_cons]
        congr 2
        omega
      · rename_i hleaf
        have hzero : (Tree.arityOf n).getD 0 = 0 := by
          cases harity : Tree.arityOf n with
          | none => rfl
          | some k =>
            cases k with
            | zero => rfl
            | succ k => exact absurd harity (hleaf k)
        rw [hzero, Nat.zero_add] at h
        obtain ⟨a, ha⟩ := hr.atom n
        rw [ha, pure_bind]
        rcases Nat.eq_zero_or_pos c with rfl | hpos
        · obtain ⟨v, hv⟩ := hr.settle_done a hopen hc
          rw [hv, pure_bind]
          have hsl : sl = [] := Tree.Layout.fills_nil_iff.mp h
          subst hsl
          exact ⟨v, rfl⟩
        · obtain ⟨st', hsettle, hopen', hneed'⟩ := hr.settle_open a hopen (by omega)
          rw [hsettle, pure_bind]
          obtain ⟨v, hgo⟩ := Follows.go_fills hr sl rest st' (used + 1) hopen' (by
            rw [show need st' = c by omega]
            exact h)
          refine ⟨v, ?_⟩
          simp only
          rw [hgo, List.length_cons]
          congr 2
          omega
    · cases h

/-- A reading that follows the shape reads all of a complete subtree and
nothing after it. -/
theorem Follows.read_fills (hr : r.Follows fs) {sl : List Node} (h : (Tree.Layout.shape fs).Fills [()] sl)
    (rest : List Node) : ∃ v, r.read (sl ++ rest) = pure (v, sl.length) := by
  simpa [Reading.read, need] using Follows.go_fills hr sl rest [] 0 (by simp) h

end Reading

namespace Tree

open Reading

variable (t : Tree)

/-- A node that fits the shape takes as many arguments in the slice reading
as its primitive has. -/
theorem sliceReading_arity {n : Node} (h : (Layout.shape t.functions).fits () n = true) :
    t.sliceReading.arity n = arityOf n := by
  cases n with
  | func p =>
    simp only [Layout.shape, List.contains_iff_mem] at h
    simp [sliceReading, h, arityOf, Node.primitive?]
  | term a k => rfl

/-- The slice reading follows the shape of the tree's function set. -/
theorem sliceReading_follows : t.sliceReading.Follows t.functions where
  arity _ h := t.sliceReading_arity h
  leaf _ := ⟨(), rfl⟩
  close _ _ := ⟨(), rfl⟩

/-- The slice reading of a complete subtree reads all of it and nothing after. -/
theorem sliceReading_read {sl : List Node} (h : (Layout.shape t.functions).Fills [()] sl)
    (rest : List Node) : t.sliceReading.read (sl ++ rest) = pure ((), sl.length) := by
  obtain ⟨_, hv⟩ := t.sliceReading_follows.read_fills h rest
  exact hv

/-- `sl` is the subtree of `t` at position `i`: it starts there and is one
complete subtree. -/
def SubtreeAt (i : Nat) (sl : List Node) : Prop :=
  sl <+: t.nodes.drop i ∧ (Layout.shape t.functions).Fills [()] sl

variable {t}

theorem SubtreeAt.ne_nil {i : Nat} {sl : List Node} (h : t.SubtreeAt i sl) : sl ≠ [] := by
  rintro rfl
  simp [SubtreeAt, Layout.Fills] at h

theorem SubtreeAt.eq_take {i : Nat} {sl : List Node} (h : t.SubtreeAt i sl) :
    sl = (t.nodes.drop i).take sl.length :=
  List.prefix_iff_eq_take.mp h.1

/-- **A position starts one subtree.** -/
theorem SubtreeAt.unique {i : Nat} {sl sl' : List Node} (h : t.SubtreeAt i sl)
    (h' : t.SubtreeAt i sl') : sl = sl' := by
  have hf := h.2
  have hf' := h'.2
  rw [h.eq_take] at hf ⊢
  rw [h'.eq_take] at hf' ⊢
  exact hf.take_eq hf'

/-- **Every position of a well-formed tree starts a subtree.** -/
theorem WellFormed.exists_subtreeAt (hw : t.WellFormed) {i : Nat} (hi : i < t.nodes.length) :
    ∃ sl, t.SubtreeAt i sl := by
  obtain ⟨_, _, k, -, hk, -⟩ := Layout.Fills.slot_at hw hi
  exact ⟨_, List.take_prefix k _, hk⟩

/-- A subtree starts with the node at its position. -/
theorem SubtreeAt.head? {i : Nat} {sl : List Node} (h : t.SubtreeAt i sl) :
    ∃ hi : i < t.nodes.length, sl.head? = some t.nodes[i] := by
  obtain ⟨rest, hrest⟩ := h.1
  cases sl with
  | nil => exact absurd rfl h.ne_nil
  | cons x sl =>
    have hi : i < t.nodes.length := by
      have := congrArg List.length hrest
      simp at this
      omega
    refine ⟨hi, ?_⟩
    have hx := congrArg List.head? hrest
    rw [List.head?_drop] at hx
    simpa [List.getElem?_eq_getElem hi] using hx

/-- A subtree cuts its tree into what comes before it, itself, and what follows. -/
theorem SubtreeAt.nodes_eq {i : Nat} {sl : List Node} (h : t.SubtreeAt i sl) :
    t.nodes = t.nodes.take i ++ sl ++ t.nodes.drop (i + sl.length) := by
  obtain ⟨rest, hrest⟩ := h.1
  have hrest' : rest = t.nodes.drop (i + sl.length) := by
    rw [← List.drop_drop, ← hrest, List.drop_left]
  rw [List.append_assoc, ← hrest', hrest, List.take_append_drop]

/-- The whole list of a well-formed tree is its subtree at the front. -/
theorem WellFormed.subtreeAt_zero (hw : t.WellFormed) : t.SubtreeAt 0 t.nodes :=
  ⟨by simp, hw⟩

theorem subtreeEnd_eq {i : Nat} {sl : List Node} (h : t.SubtreeAt i sl) :
    t.subtreeEnd i = pure ((i : Int) + sl.length - 1) := by
  obtain ⟨rest, hrest⟩ := h.1
  have hread : t.readFrom i = sl ++ rest := by
    rw [readFrom, if_neg (by omega), Int.toNat_natCast, hrest]
  rw [subtreeEnd, if_neg (by omega), hread, sliceReading_read t h.2 rest, pure_bind]

/-- **The subtree of a node is the subtree at its first occurrence.**  In a
well-formed tree, the first position `i` of a node equal to `n` starts a
subtree, and that subtree is what `subtreeOf` answers, also at the front,
where it answers the whole list. -/
theorem subtreeOf_eq (hw : t.WellFormed) {n : Node} {i : Nat} (hn : firstSame t.nodes n = some i)
    {sl : List Node} (h : t.SubtreeAt i sl) : t.subtreeOf n = pure sl := by
  have hidx : t.indexOf n = pure i := by simp [indexOf, hn]
  rw [subtreeOf, hidx, pure_bind]
  split
  · rename_i hzero
    subst hzero
    rw [hw.subtreeAt_zero.unique h]
  · rw [subtreeEnd_eq h, pure_bind]
    have hlen : 0 < sl.length := List.length_pos_iff.mpr h.ne_nil
    have hcount : ((i : Int) + sl.length - 1).toNat + 1 - i = sl.length := by omega
    rw [hcount, ← h.eq_take]

/-- A replacement cuts as many nodes as the old subtree has from the first
occurrence of its first node on. -/
theorem replace_eq {old new : List Node} {x : Node} (hx : old.head? = some x) {i : Nat}
    (hi : firstSame t.nodes x = some i) :
    t.replace old new = pure { t with nodes := t.nodes.take i ++ new ++ t.nodes.drop (i + old.length) } := by
  have hidx : t.indexOf x = pure i := by simp [indexOf, hi]
  simp only [replace, hx, hidx, pure_bind]

/-- What follows a subtree taken as a prefix `take m` starts at its length. -/
theorem drop_drop_of_eq_take {i m : Nat} {sl : List Node} (hm : sl = (t.nodes.drop i).take m) : (t.nodes.drop i).drop m = t.nodes.drop (i + sl.length) := by
  have h1 := List.take_append_drop m (t.nodes.drop i)
  rw [← hm] at h1
  calc (t.nodes.drop i).drop m = (sl ++ (t.nodes.drop i).drop m).drop sl.length := (List.drop_left ..).symm
    _ = (t.nodes.drop i).drop sl.length := by rw [h1]
    _ = t.nodes.drop (i + sl.length) := List.drop_drop

/-- **The context of a subtree of a well-formed tree.**  Before position `i`
one slot is open for the subtree there, and what follows the subtree fills
the slots open behind it. -/
theorem WellFormed.context (hw : t.WellFormed) {i : Nat} {sl : List Node} (h : t.SubtreeAt i sl) :
    ∃ ts, (Layout.shape t.functions).pending [()] (t.nodes.take i) = some (() :: ts) ∧
      (Layout.shape t.functions).Fills ts (t.nodes.drop (i + sl.length)) := by
  have hi : i < t.nodes.length := by
    have := List.length_pos_iff.mpr h.ne_nil
    have := h.1.length_le
    simp only [List.length_drop] at this
    omega
  obtain ⟨⟨⟩, ts, m, hpre, hm, hrest⟩ := Layout.Fills.slot_at hw hi
  have hsl : sl = (t.nodes.drop i).take m := h.unique ⟨List.take_prefix m _, hm⟩
  exact ⟨ts, hpre, drop_drop_of_eq_take hsl ▸ hrest⟩

/-- **Splicing a complete subtree in place of a subtree keeps a tree well formed.** -/
theorem WellFormed.splice (hw : t.WellFormed) {i : Nat} {sl new : List Node} (h : t.SubtreeAt i sl)
    (hnew : (Layout.shape t.functions).Fills [()] new) :
    (Layout.shape t.functions).Fills [()] (t.nodes.take i ++ new ++ t.nodes.drop (i + sl.length)) := by
  obtain ⟨ts, hpre, hrest⟩ := hw.context h
  exact Layout.fills_replace hpre hrest hnew

/-- A subtree that fills a slot of a kind starts with a node of that kind, and
the kind is one. -/
theorem kinds_fills_head {fs : List Primitive} {k : Option Kind} {x : Node} {sl : List Node}
    (h : (Layout.kinds fs).Fills [k] (x :: sl)) : x.kind = k ∧ k.isSome = true := by
  rw [Layout.Fills, Layout.pending_cons_cons] at h
  split at h
  · rename_i hfit
    simp only [Layout.kinds, Bool.and_eq_true, beq_iff_eq] at hfit
    exact ⟨hfit.1.1, hfit.1.2⟩
  · cases h

/-- **The context of a subtree of a well-typed tree.**  Before position `i`
a slot of some kind is open, the subtree there fills it, and what follows
fills the slots behind it. -/
theorem WellTyped.context (ht : t.WellTyped) {i : Nat} {sl : List Node} (h : t.SubtreeAt i sl) :
    ∃ k ts, (Layout.kinds t.functions).pending [t.rootKind] (t.nodes.take i) = some (k :: ts) ∧
      (Layout.kinds t.functions).Fills [k] sl ∧
      (Layout.kinds t.functions).Fills ts (t.nodes.drop (i + sl.length)) := by
  have hi : i < t.nodes.length := by
    have := List.length_pos_iff.mpr h.ne_nil
    have := h.1.length_le
    simp only [List.length_drop] at this
    omega
  obtain ⟨k, ts, m, hpre, hm, hrest⟩ := Layout.Fills.slot_at ht hi
  have hsl : sl = (t.nodes.drop i).take m := h.unique ⟨List.take_prefix m _, hm.shape_of_kinds⟩
  exact ⟨k, ts, hpre, hsl ▸ hm, drop_drop_of_eq_take hsl ▸ hrest⟩

/-- **Splicing a subtree of the same kind in place of a subtree keeps a tree well typed.** -/
theorem WellTyped.splice (ht : t.WellTyped) {i : Nat} {x : Node} {sl new : List Node}
    (h : t.SubtreeAt i (x :: sl)) (hnew : (Layout.kinds t.functions).Fills [x.kind] new) :
    (Layout.kinds t.functions).Fills [t.rootKind]
      (t.nodes.take i ++ new ++ t.nodes.drop (i + (x :: sl).length)) := by
  obtain ⟨k, ts, hpre, hsl, hrest⟩ := ht.context h
  rw [(kinds_fills_head hsl).1] at hnew
  exact Layout.fills_replace hpre hrest hnew

/-- The subtree at a position of a well-typed tree fills a slot of the kind of its first node. -/
theorem WellTyped.fills_subtreeAt (ht : t.WellTyped) {i : Nat} {x : Node} {sl : List Node}
    (h : t.SubtreeAt i (x :: sl)) : (Layout.kinds t.functions).Fills [x.kind] (x :: sl) := by
  obtain ⟨k, -, -, hsl, -⟩ := ht.context h
  rw [(kinds_fills_head hsl).1]
  exact hsl

/-- Every node of a well-typed tree has a kind. -/
theorem WellTyped.kind_isSome (ht : t.WellTyped) {x : Node} (hx : x ∈ t.nodes) : x.kind.isSome = true := by
  obtain ⟨k, hfit⟩ := Layout.pending_fits ht x hx
  simp only [Layout.kinds, Bool.and_eq_true, beq_iff_eq] at hfit
  rw [hfit.1.1]
  exact hfit.1.2

end Tree

end Evolver
