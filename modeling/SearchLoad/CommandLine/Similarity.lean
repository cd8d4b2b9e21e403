import SearchLoad.Number.Binary64

namespace SearchLoad.CommandLine

open Number

/-- Letters, with a mark on those that have a partner. -/
abbrev Marked := List (Char × Bool)

/-- Marks the first free letter that equals `c` at a place from `low` to below `high`; the first
letter's place is `i`. -/
def claim (c : Char) (low high : Nat) : Nat → Marked → Option Marked
  | _, [] => none
  | i, (d, taken) :: ds =>
    if low ≤ i && i < high && d = c && !taken then some ((d, true) :: ds)
    else (claim c low high (i + 1) ds).map ((d, taken) :: ·)

/-- The letters that find a partner at most `range` places away, and the partners marked; the first
letter's place is `i`. -/
def pair (range : Nat) : Nat → List Char → Marked → List Char × Marked
  | _, [], ds => ([], ds)
  | i, c :: cs, ds =>
    match claim c (i - range) (i + range + 1) 0 ds with
    | none => pair range (i + 1) cs ds
    | some ds =>
      let (paired, ds) := pair range (i + 1) cs ds
      (c :: paired, ds)

/-- Jaro's measure in binary64, the mean of three shares: the letters of either name that have a
partner, and the partners that are in order. -/
def similarity (a b : List Char) : Rat :=
  let (xs, marked) := pair (max a.length b.length / 2 - 1) 0 a (b.map (·, false))
  let ys := (marked.filter Prod.snd).map Prod.fst
  let swaps := ((xs.zip ys).filter fun (x, y) => x != y).length / 2
  let share := fun (m n : Nat) => Binary64.div (Binary64.ofNat m) (Binary64.ofNat n)
  if xs.isEmpty then if a.isEmpty && b.isEmpty then 1 else 0
  else
    Binary64.div (Binary64.add (Binary64.add (share xs.length a.length) (share xs.length b.length))
      (share (xs.length - swaps) xs.length)) 3

def threshold : Rat := Binary64.nearest (7 / 10)

/-- The candidates whose names are like a name, the most alike last. -/
def similarTo {α : Type} (name : String) (nameOf : α → String) (candidates : List α) : List α :=
  let scored := candidates.map fun c => (c, similarity name.toList (nameOf c).toList)
  ((scored.filter fun s => threshold < s.2).mergeSort fun s t => s.2 ≤ t.2).map Prod.fst

end SearchLoad.CommandLine
