/-!
# The Mersenne Twister

MT19937: a state of 624 words and a position in it.  When the position
reaches the end, all words are regenerated at once (`twist`); each output
word is a tempered state word (`next`).  Two ways of seeding exist: from one
word (`ofWord`) and from a key of words (`ofKey`), which first seeds from the
word 19650218 and then mixes the key in.
-/

namespace Evolver
namespace Random

/-- The number of state words. -/
def stateSize : Nat := 624

/-- A generator state: 624 words and the index of the next unused one. -/
structure Twister where
  words : Array UInt32
  pos : Nat
deriving Inhabited

namespace Twister

/-- The state word at an index (zero outside the state). -/
def word (t : Twister) (i : Nat) : UInt32 := t.words.getD i 0

/-- Seeding from one word: each word is derived from the one before. -/
def ofWord (s : UInt32) : Twister :=
  let ws := (List.range (stateSize - 1)).foldl
    (fun (acc : Array UInt32) i =>
      let prev := acc.getD i 0
      acc.push ((1812433253 : UInt32) * (prev ^^^ (prev >>> 30)) + (i + 1).toUInt32))
    #[s]
  ⟨ws, stateSize⟩

/-- The first mixing pass of key seeding: `steps` steps from word index `i`
and key index `j`. -/
def mixKey (key : Array UInt32) : Nat → Array UInt32 → Nat → Nat → Array UInt32 × Nat
  | 0, ws, i, _ => (ws, i)
  | steps + 1, ws, i, j =>
    let prev := ws.getD (i - 1) 0
    let v := (ws.getD i 0 ^^^ ((prev ^^^ (prev >>> 30)) * (1664525 : UInt32))) + key.getD j 0 + j.toUInt32
    let ws := ws.setIfInBounds i v
    let (ws, i) := if i + 1 ≥ stateSize then (ws.setIfInBounds 0 (ws.getD (stateSize - 1) 0), 1)
      else (ws, i + 1)
    let j := if j + 1 ≥ key.size then 0 else j + 1
    mixKey key steps ws i j

/-- The second mixing pass of key seeding. -/
def mixRest : Nat → Array UInt32 → Nat → Array UInt32
  | 0, ws, _ => ws
  | steps + 1, ws, i =>
    let prev := ws.getD (i - 1) 0
    let v := (ws.getD i 0 ^^^ ((prev ^^^ (prev >>> 30)) * (1566083941 : UInt32))) - i.toUInt32
    let ws := ws.setIfInBounds i v
    let (ws, i) := if i + 1 ≥ stateSize then (ws.setIfInBounds 0 (ws.getD (stateSize - 1) 0), 1)
      else (ws, i + 1)
    mixRest steps ws i

/-- Seeding from a key of words. -/
def ofKey (key : List UInt32) : Twister :=
  let k := key.toArray
  let base := (ofWord 19650218).words
  let (ws, i) := mixKey k (max stateSize k.size) base 1 0
  let ws := mixRest (stateSize - 1) ws i
  ⟨ws.setIfInBounds 0 0x80000000, stateSize⟩

/-- Regenerate all state words, each from itself, the next word and the
word 397 places on (already regenerated when that lies behind). -/
def twist (ws : Array UInt32) : Array UInt32 :=
  (List.range stateSize).foldl (fun (ws : Array UInt32) i =>
    let y := (ws.getD i 0 &&& 0x80000000) ||| (ws.getD ((i + 1) % stateSize) 0 &&& 0x7fffffff)
    let mag : UInt32 := if y % 2 = 1 then 0x9908b0df else 0
    ws.setIfInBounds i (ws.getD ((i + 397) % stateSize) 0 ^^^ (y >>> 1) ^^^ mag)) ws

/-- The tempering of an output word. -/
def temper (y : UInt32) : UInt32 :=
  let y := y ^^^ (y >>> 11)
  let y := y ^^^ ((y <<< 7) &&& 0x9d2c5680)
  let y := y ^^^ ((y <<< 15) &&& 0xefc60000)
  y ^^^ (y >>> 18)

/-- The next output word and the state after it. -/
def next (t : Twister) : UInt32 × Twister :=
  let t := if t.pos ≥ stateSize then ⟨twist t.words, 0⟩ else t
  (temper (t.word t.pos), ⟨t.words, t.pos + 1⟩)

end Twister

end Random
end Evolver
