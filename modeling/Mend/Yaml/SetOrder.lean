import Mend.Atom

/-!
# The order of sets

A set has no order of its own, but its elements are shown and read in one. A set of numbers has a number of
places that is a power of two. Each number takes the place that its residue names, or if that is taken one
of those behind it or elsewhere, and the order is that of the places. Any other set keeps the order in which
it is written.
-/

namespace Mend.Yaml.SetOrder

/-- The modulus of residues. -/
def modulus : Nat := Number.twoTo 61 - 1

/-- A residue with its sign; minus one is no residue. -/
def signed (negative : Bool) (n : Nat) : Int :=
  if !negative then n else if n = 1 then -2 else -n

/-- The residue of a fraction `m / 2^places`: two has the inverse `2^60`. -/
def ofFraction (m places : Nat) : Nat := m * Number.twoTo ((61 - places % 61) % 61) % modulus

/-- The residue of an atom, if it is a number. -/
def residue? (a : Atom) : Option Int :=
  match a.integer?, a with
  | some n, _ => some (signed (n < 0) (n.natAbs % modulus))
  | none, .float x =>
    match Number.classify x with
    | .finite negative d => some (signed negative (ofFraction d.mantissa (-d.exponent).toNat))
    | .infinite negative => some (signed negative 314159)
    | _ => none
  | none, _ => none

/-- The number of places for so many elements. -/
def placesFor (count : Nat) : Nat := if count < 5 then 8 else Number.twoTo (Nat.log2 (2 * count) + 1)

/-- How many places are tried one after the other. -/
def runLength (places i : Nat) : Nat := if i + 9 < places then 10 else 1

/-- The first place that is not taken, from a place on; after a run of taken places the search goes on
elsewhere. -/
def freePlace (places : Nat) (taken : List Nat) : Nat → (i shift : Nat) → Nat
  | 0, i, _ => i
  | fuel + 1, i, shift =>
    match (List.range (runLength places i)).find? fun j => !taken.elem (i + j) with
    | some j => i + j
    | none =>
      let shift := shift / 32
      freePlace places taken fuel ((i * 5 + 1 + shift) % places) shift

/-- The places of some residues, in their order. -/
def placesOf (places : Nat) (rs : List Int) : List Nat :=
  (rs.foldl (fun taken r =>
    let n := (r % (Number.twoTo 64 : Int)).toNat
    freePlace places taken (places + 16) (n % places) n :: taken) []).reverse

/-- The elements of a set in order. -/
def sorted (as : List Atom) : List Atom :=
  match as.mapM residue? with
  | none => as
  | some rs =>
    let placed := (placesOf (placesFor as.length) rs).zip as
    (placed.mergeSort fun a b => a.1 ≤ b.1).map (·.2)

end Mend.Yaml.SetOrder
