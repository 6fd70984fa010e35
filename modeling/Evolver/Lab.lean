import Evolver.Random.Stream
/-!
# The state of a request

A request to the library threads one `Lab` through everything it does: the
seeded stream that all random choices draw from, a second stream seeded from
a single word that fitness-proportionate selection draws from, the next
individual identity, and the next object identity of a value made at run time.
`Draw` is a computation over that state that may fail; a failure keeps the
state reached, so what happened before it stays visible.

`Lab.start` is the state at the start of a request: both streams seeded with
zero and both counters fresh.
-/

open Evolver.Random

namespace Evolver

/-- Random streams and identity counters of a request. -/
structure Lab where
  /-- the stream of every random choice but one -/
  stream : Stream
  /-- the stream of fitness-proportionate selection -/
  legacy : Twister
  /-- the identity of the next individual -/
  nextId : Nat
  /-- the identity of the next value object -/
  nextRef : Nat
deriving Inhabited

/-- The state at the start of a request. -/
def Lab.start : Lab := ⟨Stream.seed 0, Twister.ofWord 0, 1, 0⟩

/-- A computation over the state of a request that may fail. -/
abbrev Draw := EStateM Fault Lab

namespace Draw

/-- A computation that may fail, as a draw that leaves the state alone. -/
def ofExcept {α : Type} : Except Fault α → Draw α
  | .ok a => pure a
  | .error e => throw e

/-- Run a draw on the stream. -/
def onStream {α : Type} (f : Stream → α × Stream) : Draw α :=
  modifyGet fun l => let (a, s) := f l.stream; (a, { l with stream := s })

/-- Run a draw on the stream that may fail; a failure leaves the stream as it was. -/
def tryStream {α : Type} (f : Stream → Except Fault (α × Stream)) : Draw α := do
  let l ← get
  match f l.stream with
  | .ok (a, s) => set { l with stream := s }; pure a
  | .error e => throw e

/-- Seed both streams with `n`.  The main stream takes any integer (its
magnitude); the single-word stream takes `0 ≤ n < 2^32` only, and a seed
outside fails after the main stream is seeded. -/
def seed (n : Int) : Draw Unit := do
  modify fun l => { l with stream := Stream.seed n }
  if 0 ≤ n ∧ n < Int.pow 2 32 then
    modify fun l => { l with legacy := Twister.ofWord n.toNat.toUInt32 }
  else throw (Fault.value "Seed must be between 0 and 2**32 - 1")

/-- A double in `[0, 1)`. -/
def random : Draw Float := onStream Stream.random

/-- `k` random bits. -/
def bits (k : Nat) : Draw Nat := onStream (Stream.bits k)

/-- A position in a sequence of `n` items; an empty sequence has none. -/
def choice (n : Nat) : Draw Nat :=
  if n = 0 then throw (Fault.index "Cannot choose from an empty sequence")
  else onStream (Stream.choose n)

/-- An integer from `a` to `b` inclusive. -/
def randint (a b : Value) : Draw Int := tryStream (Stream.randint a b)

/-- A double between `a` and `b`. -/
def uniform (a b : Value) : Draw Float := tryStream (Stream.uniform a b)

/-- A normal deviate. -/
def gauss (mu sigma : Float) : Draw Float := onStream (Stream.gauss mu sigma)

/-- `k` distinct positions out of `n`. -/
def sample (n k : Nat) : Draw (List Nat) := tryStream (Stream.sample n k)

/-- `k` positions out of `n`, with replacement. -/
def pick (n k : Nat) : Draw (List Nat) := onStream (Stream.pick n k)

/-- A double in `[0, 1)` from the single-word stream. -/
def legacyRandom : Draw Float :=
  modifyGet fun l =>
    let (r, s) := Stream.random ⟨l.legacy, none⟩
    (r, { l with legacy := s.gen })

/-- The identity of a new individual. -/
def freshId : Draw Nat := modifyGet fun l => (l.nextId, { l with nextId := l.nextId + 1 })

/-- The identity of a new value object. -/
def freshRef : Draw Nat := modifyGet fun l => (l.nextRef, { l with nextRef := l.nextRef + 1 })

end Draw

end Evolver
