import Evolver.Proofs.Tree.Subtree
import Evolver.Proofs.Run
import Evolver.Proofs.Store.Frame
import Evolver.Create.Tree
/-!
# The kinds of a grown typed tree

A typed tree is grown top-down: each place asks for a kind, a function node of
that kind is drawn and its arguments are grown at the kinds it declares, or a
terminal is drawn.  A key of the terminal set keeps the kind the set gives it,
which is the kind asked for.  A random constant is another matter: it is
offered for every slot of a number kind (bool, int, argmax, float) and takes
the kind of its own class, an int for a range of ints, so an int constant can
stand where a bool is declared.

`Tree.Layout.grown` is the layout of kinds with exactly that exception: a
random constant (`Tree.isConstant`) fits any slot of a number kind.  A tree
made over a mapping of terminals has what growing needs (`Tree.make_typedSets`:
the root and every argument of a primitive have a kind, and the terminal set
holds each key once), and every subtree grown from it fills its slot in the
grown layout (`Tree.growAt_fills`).  Without a range of constants the grown
layout is the layout of kinds, so the tree is well typed
(`Tree.Layout.grown_eq_kinds`).
-/

namespace Evolver

namespace Tree

/-- The class of a range's random constants: floats for a range whose lower
end is a float, ints otherwise. -/
def constantKind (erc : Value × Value) : Kind :=
  match erc.1 with
  | .float _ => .float
  | _ => .int

/-- A terminal the tree may hold as a random constant: a value of the class
of its range, with the kind of the key the terminal set finds for it, or else
the kind of that class. -/
def isConstant (t : Tree) : Node → Bool
  | .term a k =>
    match t.erc with
    | some erc => a.value.kind? == some (constantKind erc) && k == (t.kindOfKey a).getD a.value.kind?
    | none => false
  | .func _ => false

namespace Layout

/-- The kinds of a grown typed tree: as `kinds`, except that a random
constant fits any slot of a number kind. -/
def grown (t : Tree) : Layout (Option Kind) where
  slots := (kinds t.functions).slots
  fits k n := (kinds t.functions).fits k n || (t.isConstant n && k.any Kind.isNumber)

/-- Without a range of constants, the grown layout is the layout of kinds. -/
theorem grown_eq_kinds {t : Tree} (h : t.erc = none) : grown t = kinds t.functions := by
  have hfits : (grown t).fits = (kinds t.functions).fits := by
    funext k n
    cases n <;> simp [grown, isConstant, h]
  rw [show kinds t.functions = ⟨(kinds t.functions).slots, (kinds t.functions).fits⟩ from rfl, ← hfits]
  rfl

end Layout

/-- What growing asks of a typed tree's sets: the root and every argument of
a primitive have a kind, and the terminal set holds each key once. -/
structure TypedSets (t : Tree) : Prop where
  root_isSome : t.rootKind.isSome
  argKinds_isSome : ∀ p ∈ t.functions, ∀ k ∈ p.argKinds, k.isSome
  keys_once : t.terminals.Pairwise fun e e' => findsKey e.key e'.key = false

/-! ### The checks of a typed tree -/

theorem mem_distinct {k : Option Kind} : ∀ {acc ks : List (Option Kind)},
    k ∈ ks.foldl (fun acc k => if acc.contains k then acc else acc ++ [k]) acc ↔ k ∈ acc ∨ k ∈ ks
  | acc, [] => by simp
  | acc, x :: ks => by
    rw [List.foldl_cons, mem_distinct]
    split
    · rename_i hx
      simp only [List.contains_iff_mem] at hx
      constructor
      · rintro (h | h)
        · exact .inl h
        · exact .inr (List.mem_cons_of_mem x h)
      · rintro (h | h)
        · exact .inl h
        · rcases List.mem_cons.1 h with rfl | h
          · exact .inl hx
          · exact .inr h
    · simp only [List.mem_append, List.mem_cons, List.not_mem_nil, or_false, or_assoc]

theorem mem_distinct_iff {k : Option Kind} {ks : List (Option Kind)} : k ∈ distinct ks ↔ k ∈ ks := by
  rw [distinct, mem_distinct]
  simp

/-- The last check of `checkKinds`: every argument kind is the kind of a
terminal or of the constants. -/
theorem covers_of_checked {fs : List Primitive} {ts : List Terminal} {extra : List (Option Kind)}
    (h : ¬(!((distinct (fs.flatMap Primitive.argKinds)).all (distinct (ts.map Terminal.kind ++ extra)).contains &&
      (distinct (ts.map Terminal.kind ++ extra)).all (distinct (fs.flatMap Primitive.argKinds)).contains)) = true) :
    ∀ p ∈ fs, ∀ k ∈ p.argKinds, k ∈ ts.map Terminal.kind ∨ k ∈ extra := by
  simp only [Bool.not_eq_true', Bool.not_eq_false, Bool.and_eq_true, List.all_eq_true,
    List.contains_iff_mem, mem_distinct_iff] at h
  intro p hp k hk
  exact List.mem_append.1 (h.1 k (List.mem_flatMap.2 ⟨p, hp, hk⟩))

/-- What the checks of a typed tree establish: the root kind is the result of
a primitive, and every argument kind is that of a terminal or of the constants. -/
theorem checkKinds_ok {fs : List Primitive} {ts : List Terminal} {erc : Option (Value × Value)}
    {root : Option Kind} (h : checkKinds fs ts erc root = .ok ()) :
    root ∈ fs.map Primitive.resultKind ∧
      ∀ p ∈ fs, ∀ k ∈ p.argKinds, k ∈ ts.map Terminal.kind ∨ k ∈ (ercKind? erc).toList.map some := by
  unfold checkKinds at h
  simp only [bind, Except.bind] at h
  split at h
  · cases h
  rename_i hroot
  simp only [Bool.not_eq_true', Bool.not_eq_false, List.contains_iff_mem] at hroot
  refine ⟨hroot, ?_⟩
  -- the check of the constants' kind either fails or leads to the last check
  cases hk : ercKind? erc with
  | none =>
    simp only [hk] at h ⊢
    split at h
    · cases h
    · exact covers_of_checked ‹_›
  | some k =>
    simp only [hk] at h ⊢
    split at h
    · cases h
    · split at h
      · cases h
      · exact covers_of_checked ‹_›

/-- A loop whose every step that answers has looked at a terminal with a
kind and goes on: when the loop answers, every terminal has a kind. -/
theorem forIn_kinds_ok {body : Terminal → PUnit → Except Fault (ForInStep PUnit)}
    (hbody : ∀ e u r, body e u = .ok r → e.kind.isSome ∧ r = .yield PUnit.unit) :
    ∀ (ts : List Terminal) {u : PUnit}, forIn ts PUnit.unit body = .ok u → ∀ e ∈ ts, e.kind.isSome
  | [], _, _ => by simp
  | e :: ts, u, h => by
    rw [List.forIn_cons] at h
    cases he : body e PUnit.unit with
    | error err =>
      rw [he] at h
      cases h
    | ok r =>
      obtain ⟨hkind, rfl⟩ := hbody e _ r he
      rw [he] at h
      intro e' he'
      rcases List.mem_cons.1 he' with rfl | he'
      · exact hkind
      · exact forIn_kinds_ok hbody ts h e' he'

/-- A tree made over a mapping of terminals: the keys collected, every one
with a kind, the checks of kinds passed, and no nodes. -/
theorem make_kinds_ok {fs : List FunctionEntry} {ks : List (Atom × Option Kind)} {erc : Option (Value × Value)}
    {root : Option Kind} {t : Tree} (h : make (some fs) (some (.kinds ks)) erc root = .ok t) :
    t.terminals = collectKeys ks ∧ t.erc = erc ∧ t.rootKind = root ∧ t.nodes = [] ∧
      (∀ e ∈ t.terminals, e.kind.isSome) ∧ checkKinds t.functions t.terminals erc root = .ok () := by
  unfold make at h
  simp only [bind, Except.bind] at h
  split at h
  · cases h
  split at h
  · cases h
  rename_i hloop
  have hkinds := forIn_kinds_ok (fun e u r hr => by
    split at hr
    · cases hr
    · rename_i hk
      cases hr
      refine ⟨?_, rfl⟩
      cases hkind : e.kind with
      | none => exact absurd (by rw [hkind]; rfl) hk
      | some k => rfl) _ hloop
  split at h
  · cases h
  rename_i hcheck
  cases h
  exact ⟨rfl, rfl, rfl, rfl, hkinds, hcheck⟩

theorem findsKey_self (a : Atom) : findsKey a a = true := by
  simp [findsKey, Atom.same_refl]

/-- Collecting one more entry: a key found again takes the new kind, a new key
is appended. -/
theorem collectKeys_append_singleton (es : List (Atom × Option Kind)) (a : Atom) (k : Option Kind) :
    collectKeys (es ++ [(a, k)]) =
      if (collectKeys es).any (fun t => findsKey t.key a) then
        (collectKeys es).map fun t => if findsKey t.key a then { t with kind := k } else t
      else collectKeys es ++ [⟨a, k⟩] := by
  rw [collectKeys, List.foldl_append]
  rfl

/-- A terminal set collected from a mapping holds each key once: no entry is
found for a later one. -/
theorem collectKeys_pairwise (es : List (Atom × Option Kind)) :
    (collectKeys es).Pairwise fun e e' => findsKey e.key e'.key = false := by
  induction es using List.reverseRecOn with
  | nil => exact List.Pairwise.nil
  | append_singleton es x ih =>
    obtain ⟨a, k⟩ := x
    rw [collectKeys_append_singleton]
    split
    · -- a key found again changes its kind, not its key
      rw [List.pairwise_map]
      refine ih.imp fun {e e'} h => ?_
      split <;> split <;> exact h
    · rename_i hnone
      rw [List.pairwise_append]
      refine ⟨ih, List.pairwise_singleton _ _, fun e he e' he' => ?_⟩
      rw [List.mem_singleton] at he'
      subst he'
      simpa using List.any_eq_false.1 (Bool.eq_false_iff.2 hnone) e he

/-- In a terminal set that holds each key once, every key is found with its own kind. -/
theorem kindOfKey_of_mem {t : Tree} (hd : t.terminals.Pairwise fun e e' => findsKey e.key e'.key = false)
    {e : Terminal} (he : e ∈ t.terminals) : t.kindOfKey e.key = some e.kind := by
  obtain ⟨pre, post, hsplit⟩ := List.append_of_mem he
  have hpre : ∀ x ∈ pre, findsKey x.key e.key = false := by
    rw [hsplit] at hd
    exact fun x hx => (List.pairwise_append.1 hd).2.2 x hx e List.mem_cons_self
  have hnone : pre.find? (fun x => findsKey x.key e.key) = none :=
    List.find?_eq_none.2 fun x hx => by simp [hpre x hx]
  simp [kindOfKey, hsplit, List.find?_append, hnone, findsKey_self]

/-- An untyped primitive takes at least one argument. -/
theorem none_mem_argKinds {p : Primitive} (h : p.resultKind = none) : none ∈ p.argKinds := by
  revert h
  cases p <;> decide

/-- **The sets of a typed tree as made.**  A tree made over a mapping of
terminals has typed sets and no nodes yet. -/
theorem make_typedSets {fs : List FunctionEntry} {ks : List (Atom × Option Kind)} {erc : Option (Value × Value)}
    {root : Option Kind} {t : Tree} (h : make (some fs) (some (.kinds ks)) erc root = .ok t) :
    t.TypedSets ∧ t.rootKind = root ∧ t.nodes = [] := by
  obtain ⟨hterms, -, hroot, hnodes, hkinds, hcheck⟩ := make_kinds_ok h
  obtain ⟨hres, hcover⟩ := checkKinds_ok hcheck
  have hargs : ∀ p ∈ t.functions, ∀ k ∈ p.argKinds, k.isSome := by
    intro p hp k hk
    rcases hcover p hp k hk with hterm | hconst
    · obtain ⟨e, he, rfl⟩ := List.mem_map.1 hterm
      exact hkinds e he
    · obtain ⟨k', -, rfl⟩ := List.mem_map.1 hconst
      rfl
  refine ⟨⟨?_, hargs, hterms ▸ collectKeys_pairwise ks⟩, hroot, hnodes⟩
  -- the root kind is the result of a primitive, and an untyped one would
  -- take an argument of no kind
  cases hr : t.rootKind with
  | some k => rfl
  | none =>
    rw [← hroot, hr] at hres
    obtain ⟨p, hp, hpr⟩ := List.mem_map.1 hres
    have := hargs p hp none (none_mem_argKinds hpr)
    cases this

/-! ### One random node -/

end Tree

@[simp] theorem Atom.value_make (v : Value) (ref : Nat) : (Atom.make v ref).value = v := by
  unfold Atom.make
  split <;> rfl

namespace Draw

open Run

theorem atom_run {v : Value} {l l' : Lab} {a : Atom} (h : (Draw.atom v).run l = .ok a l') : a.value = v := by
  unfold Draw.atom at h
  split at h
  · obtain ⟨rfl, -⟩ := pure_run_ok.1 h
    simp
  · obtain ⟨r, l₁, -, h⟩ := bind_run_ok.1 h
    obtain ⟨rfl, -⟩ := pure_run_ok.1 h
    simp

theorem pickFrom_run_mem {α : Type} {xs : List α} {l l' : Lab} {x : α}
    (h : (Draw.pickFrom xs).run l = .ok (some x) l') : x ∈ xs := by
  obtain ⟨r, l₁, hr, hmem⟩ := Draw.pickFrom_mem xs l
  rw [hr] at h
  cases h
  exact hmem x rfl

end Draw

namespace Tree

open Run

/-- A range whose lower end is no float gives int constants. -/
theorem constantKind_of_ne_float {erc : Value × Value} (hx : ∀ x, erc.1 = .float x → False) :
    constantKind erc = .int := by
  unfold constantKind
  split
  · rename_i y hy
    exact absurd hy (hx y)
  · rfl

theorem drawConstant_run {erc : Value × Value} {l l' : Lab} {c : Value}
    (h : (drawConstant erc).run l = .ok c l') : c.kind? = some (constantKind erc) := by
  unfold drawConstant at h
  split at h
  · rename_i x hx
    obtain ⟨r, l₁, -, h⟩ := bind_run_ok.1 h
    obtain ⟨rfl, -⟩ := pure_run_ok.1 h
    rw [constantKind, hx]
    rfl
  · rename_i hx
    obtain ⟨r, l₁, -, h⟩ := bind_run_ok.1 h
    obtain ⟨rfl, -⟩ := pure_run_ok.1 h
    rw [constantKind_of_ne_float hx]
    rfl

/-- **What the pool of terminals holds**: keys of the kind asked for, and a
constant of the range's class when the kind admits numbers. -/
theorem terminalPool_run {t : Tree} {k : Option Kind} {l l' : Lab} {pool : List Atom}
    (h : (t.terminalPool k).run l = .ok pool l') :
    ∀ a ∈ pool, (∃ e ∈ t.terminals, e.kind = k ∧ a = e.key) ∨
      ∃ erc, t.erc = some erc ∧ k.all Kind.isNumber = true ∧ a.value.kind? = some (constantKind erc) := by
  have hkeys : ∀ a ∈ (t.terminals.filter (·.kind == k)).map (·.key), ∃ e ∈ t.terminals, e.kind = k ∧ a = e.key := by
    intro a ha
    obtain ⟨e, he, rfl⟩ := List.mem_map.1 ha
    obtain ⟨he, hk⟩ := List.mem_filter.1 he
    exact ⟨e, he, beq_iff_eq.1 hk, rfl⟩
  unfold terminalPool at h
  cases herc : t.erc with
  | none =>
    rw [herc] at h
    obtain ⟨rfl, -⟩ := pure_run_ok.1 h
    exact fun a ha => .inl (hkeys a ha)
  | some erc =>
    rw [herc] at h
    dsimp only at h
    split at h
    · rename_i hnum
      obtain ⟨c, l₁, hc, h⟩ := bind_run_ok.1 h
      obtain ⟨a', l₂, ha', h⟩ := bind_run_ok.1 h
      obtain ⟨rfl, -⟩ := pure_run_ok.1 h
      intro a ha
      rcases List.mem_append.1 ha with ha | ha
      · exact .inl (hkeys a ha)
      · rw [List.mem_singleton] at ha
        subst ha
        exact .inr ⟨erc, rfl, hnum, by rw [Draw.atom_run ha']; exact drawConstant_run hc⟩
    · obtain ⟨rfl, -⟩ := pure_run_ok.1 h
      exact fun a ha => .inl (hkeys a ha)

theorem randomFunction_run {t : Tree} {k : Option Kind} {l l' : Lab} {n : Node}
    (h : (t.randomFunction k).run l = .ok (some n) l') : ∃ p ∈ t.functions, p.resultKind = k ∧ n = .func p := by
  unfold randomFunction at h
  obtain ⟨r, l₁, hpick, h⟩ := bind_run_ok.1 h
  obtain ⟨hr, -⟩ := pure_run_ok.1 h
  obtain ⟨p, rfl, rfl⟩ := Option.map_eq_some_iff.1 hr
  obtain ⟨hp, hk⟩ := List.mem_filter.1 (Draw.pickFrom_run_mem hpick)
  exact ⟨p, hp, beq_iff_eq.1 hk, rfl⟩

/-- **A random terminal fits its slot**: a key has the kind asked for, and a
constant is drawn only for a number kind. -/
theorem randomTerminal_fills {t : Tree} (ht : t.TypedSets) {k : Option Kind} (hk : k.isSome) {l l' : Lab}
    {n : Node} (h : (t.randomTerminal k).run l = .ok (some n) l') : (Layout.grown t).Fills [k] [n] := by
  unfold randomTerminal at h
  obtain ⟨pool, l₁, hpool, h⟩ := bind_run_ok.1 h
  obtain ⟨r, l₂, hpick, h⟩ := bind_run_ok.1 h
  obtain ⟨hr, -⟩ := pure_run_ok.1 h
  obtain ⟨a, rfl, rfl⟩ := Option.map_eq_some_iff.1 hr
  obtain ⟨k', rfl⟩ := Option.isSome_iff_exists.1 hk
  have hfits : (Layout.grown t).fits (some k') (t.terminalNode (some k') a) = true := by
    rcases terminalPool_run hpool a (Draw.pickFrom_run_mem hpick) with ⟨e, he, hek, rfl⟩ | ⟨erc, herc, hnum, hclass⟩
    · -- a key keeps its declared kind, the kind asked for
      have hnode : t.terminalNode (some k') e.key = .term e.key (some k') := by
        simp [terminalNode, kindOfKey_of_mem ht.keys_once he, hek]
      rw [hnode]
      simp [Layout.grown, Layout.kinds, Layout.shape, Node.kind]
    · -- a constant fills a slot of a number kind
      simp [terminalNode, Layout.grown, isConstant, herc, hclass, Option.all] at hnum ⊢
      exact .inr hnum
  simp only [Layout.Fills, Layout.pending_cons_cons, hfits, if_true]
  rfl

/-! ### A grown subtree -/

end Tree

namespace Run

/-- Every answer of a loop `mapM` is an answer of its step at the matching
item, and so satisfies what every such answer does. -/
theorem mapM_run_forall₂ {ε σ α β : Type} {f : α → EStateM ε σ β} {P : α → β → Prop} :
    ∀ {xs : List α}, (∀ x ∈ xs, ∀ y s₁ s₂, (f x).run s₁ = .ok y s₂ → P x y) →
      ∀ {ys : List β} {s s' : σ}, (xs.mapM f).run s = .ok ys s' → List.Forall₂ P xs ys
  | [], _, ys, s, s', h => by
    obtain ⟨rfl, -⟩ := pure_run_ok.1 h
    exact .nil
  | x :: xs, hf, ys, s, s', h => by
    rw [List.mapM_cons] at h
    obtain ⟨y, s₁, hy, h⟩ := bind_run_ok.1 h
    obtain ⟨ys', s₂, hys, h⟩ := bind_run_ok.1 h
    obtain ⟨rfl, -⟩ := pure_run_ok.1 h
    exact .cons (hf x List.mem_cons_self y s s₁ hy)
      (mapM_run_forall₂ (fun x' hx' => hf x' (List.mem_cons_of_mem x hx')) hys)

end Run

namespace Tree

open Run

/-- Subtrees that fill one slot each fill the run of slots, one after another. -/
theorem Layout.Fills.flatten {σ : Type} {L : Layout σ} :
    ∀ {ss : List σ} {nss : List (List Node)}, List.Forall₂ (fun s ns => L.Fills [s] ns) ss nss →
      L.Fills ss nss.flatten
  | [], [], .nil => rfl
  | _ :: _, _ :: _, .cons h hs => by
    rw [List.flatten_cons]
    exact h.append (Layout.Fills.flatten hs)

/-- **A grown subtree fills its slot.**  Growing a subtree of a kind, with any
fuel, from any depth, answers nodes that are one complete subtree of that kind
in the grown layout: every function has the kind of its slot, and its
arguments are grown at the kinds it declares. -/
theorem growAt_fills {t : Tree} (ht : t.TypedSets) (how : Growth) (lo hi : Int) (noNode : Fault) :
    ∀ (fuel : Nat) (depth : Int) {k : Option Kind} {l l' : Lab} {nodes : List Node}, k.isSome →
      (t.growAt how lo hi noNode fuel depth k).run l = .ok nodes l' → (Layout.grown t).Fills [k] nodes
  | 0, _, _, _, _, _, _, h => by cases h
  | fuel + 1, depth, k, l, l', nodes, hk, h => by
    rw [growAt] at h
    obtain ⟨b, l₁, -, h⟩ := bind_run_ok.1 h
    -- the node is a function or a terminal, as the growth decides
    split at h
    · obtain ⟨r, l₂, hr, h⟩ := bind_run_ok.1 h
      cases r with
      | none => cases h
      | some n =>
        obtain ⟨p, hp, hres, rfl⟩ := randomFunction_run hr
        obtain ⟨kids, l₃, hkids, h⟩ := bind_run_ok.1 h
        obtain ⟨rfl, -⟩ := pure_run_ok.1 h
        have hargs : (Layout.grown t).Fills p.argKinds kids.flatten :=
          Layout.Fills.flatten (mapM_run_forall₂ (fun kk hkk ns _ _ hrun =>
            growAt_fills ht how lo hi noNode fuel (depth + 1) (ht.argKinds_isSome p hp kk hkk) hrun) hkids)
        have hfits : (Layout.grown t).fits k (.func p) = true := by
          simp [Layout.grown, Layout.kinds, Layout.shape, Node.kind, hres, hk, hp]
        simp only [Layout.Fills, Layout.pending_cons_cons, hfits, if_true, List.append_nil]
        exact hargs
    · obtain ⟨r, l₂, hr, h⟩ := bind_run_ok.1 h
      cases r with
      | none => cases h
      | some n =>
        obtain ⟨rfl, -⟩ := pure_run_ok.1 h
        exact randomTerminal_fills ht hk hr

/-- A tree grown from its root kind fills it in the grown layout. -/
theorem growFrom_fills {t : Tree} (ht : t.TypedSets) {how : Growth} {lo hi : Int} {noNode : Fault} {depth : Int}
    {l l' : Lab} {nodes : List Node} (h : (t.growFrom how lo hi noNode depth t.rootKind).run l = .ok nodes l') :
    (Layout.grown t).Fills [t.rootKind] nodes :=
  growAt_fills ht how lo hi noNode _ depth ht.root_isSome h

end Tree

end Evolver
