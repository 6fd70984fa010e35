import Evolver.Operator.Apply
import Mathlib
/-!
# Running computations over the store

The steps that operators take on the store, each stated once by what its run
answers, so that a proof about an operator peels its `do` blocks with
`EStateM.run_bind` and cites these lemmas instead of unfolding the steps:
reading an individual's tree (`Run.treeOf_run`), running a draw on the
store's streams (`Run.draw_run`), and giving an individual a new tree, which
changes that individual and no other (`Run.setGenome_run`).

`Store.HoldsTree s id t` says that the individual `id` is kept under its own
identity and has the tree `t`; it does not look at the streams, so every
draw keeps it.  A uniform choice from a list never fails and gives a member
of the list or nothing (`Draw.pickFrom_mem`).
-/

namespace Evolver

/-- The store holds tree `t` as the genome of individual `id`, kept under its
own identity. -/
def Store.HoldsTree (s : Store) (id : Nat) (t : Tree) : Prop :=
  ∃ i, s.individuals[id]? = some i ∧ i.id = id ∧ i.genome = .tree t

theorem Store.HoldsTree.of_getElem?_eq {s s' : Store} {id : Nat} {t : Tree} (h : s.HoldsTree id t)
    (he : s'.individuals[id]? = s.individuals[id]?) : s'.HoldsTree id t := by
  obtain ⟨i, hi, hid, hg⟩ := h
  exact ⟨i, he.trans hi, hid, hg⟩

namespace Run

theorem treeOf_run {s : Store} {id : Nat} {t : Tree} (h : s.HoldsTree id t) (name : String) :
    (treeOf id name).run s = .ok t s := by
  obtain ⟨i, hi, -, hg⟩ := h
  simp [treeOf, get, hi, hg, EStateM.run, bind, EStateM.bind, getThe, MonadStateOf.get, EStateM.get,
    pure, EStateM.pure]

theorem draw_run {α : Type} {s : Store} {d : Draw α} {a : α} {l : Lab} (h : d.run s.lab = .ok a l) :
    (draw d).run s = .ok a { s with lab := l } := by
  simp only [EStateM.run] at h
  simp [draw, EStateM.run, h]

/-- A draw that answers moves the streams only. -/
theorem draw_run_ok {α : Type} {d : Draw α} {s s' : Store} {a : α} (h : (draw d).run s = .ok a s') :
    d.run s.lab = .ok a s'.lab ∧ s'.individuals = s.individuals := by
  simp only [draw, EStateM.run] at h ⊢
  split at h
  · rename_i a' l' hd
    cases h
    exact ⟨hd, rfl⟩
  · cases h

theorem ofExcept_pure_run {α : Type} (a : α) (s : Store) : (ofExcept (pure a)).run s = .ok a s := rfl

/-- **Giving an individual a new tree changes that individual's genome and
nothing else.** -/
theorem setGenome_run {s : Store} {id : Nat} {t : Tree} (h : s.HoldsTree id t) (t' : Tree) :
    ∃ s', (setGenome id (.tree t')).run s = .ok () s' ∧ s'.HoldsTree id t' ∧ s'.lab = s.lab ∧
      ∀ id', id' ≠ id → s'.individuals[id']? = s.individuals[id']? := by
  obtain ⟨i, hi, hid, -⟩ := h
  refine ⟨{ s with individuals := s.individuals.insert id { i with genome := .tree t' } }, ?_, ?_, rfl, ?_⟩
  · simp [setGenome, update, put, get, hi, hid, EStateM.run, bind, EStateM.bind, getThe,
      MonadStateOf.get, EStateM.get, pure, EStateM.pure, modify, modifyGet, MonadStateOf.modifyGet,
      EStateM.modifyGet]
  · exact ⟨{ i with genome := .tree t' }, by simp, hid, rfl⟩
  · intro id' hne
    simp [Std.HashMap.getElem?_insert, Ne.symm hne]

end Run

/-- A uniform choice from a list never fails; what it gives is a member. -/
theorem Draw.pickFrom_mem {α : Type} (xs : List α) (l : Lab) :
    ∃ r l', (Draw.pickFrom xs).run l = .ok r l' ∧ ∀ x, r = some x → x ∈ xs := by
  unfold Draw.pickFrom
  split
  · exact ⟨none, l, rfl, by simp⟩
  · rename_i hne
    have hpos : xs.length ≠ 0 := by simpa using hne
    simp only [Draw.choice, if_neg hpos, Draw.onStream, EStateM.run, bind, EStateM.bind, modifyGet,
      MonadStateOf.modifyGet, EStateM.modifyGet, pure, EStateM.pure]
    exact ⟨_, _, rfl, fun x hx => List.mem_of_getElem? hx⟩

end Evolver
