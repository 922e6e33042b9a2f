/-!
# Similar words

Two characters match if they are equal and stand about as far from the beginnings of their words.
The similarity of two words is the mean of three shares: the matching characters among those of
each word, and those in common order among the matching ones.
-/

namespace GlyphTables.CommandLine

/-- How far apart matching characters may stand. -/
def reach (a b : List Char) : Nat :=
  max a.length b.length / 2 - 1

/-- The characters of a word that match some character of `b`, from index `i` on, each with the
index of its partner; the partners at `used` are taken. -/
def matching (b : List Char) (reach : Nat) (used : List Nat) (i : Nat) :
    List Char → List (Char × Nat)
  | [] => []
  | c :: rest =>
    let partner? := (List.range b.length).find? fun j =>
      i ≤ j + reach && j ≤ i + reach && b[j]? == some c && !used.contains j
    match partner? with
    | some j => (c, j) :: matching b reach (j :: used) (i + 1) rest
    | none => matching b reach used (i + 1) rest

/-- Pairs of matching characters that stand in another order in the other word. -/
def transpositions (b : List Char) (pairs : List (Char × Nat)) : Nat :=
  let partners := (List.range b.length).filter fun j => (pairs.map Prod.snd).contains j
  let inOrder := partners.filterMap fun j => b[j]?
  ((pairs.map Prod.fst).zip inOrder).countP (fun pair => pair.1 != pair.2) / 2

/-- Whether the similarity of `a` and `b` is at least seven tenths. -/
def isSimilar (a b : List Char) : Bool :=
  let pairs := matching b (reach a b) [] 0 a
  let m := pairs.length
  let t := transpositions b pairs
  m != 0 && 21 * a.length * b.length * m ≤
    10 * (m * m * b.length + m * m * a.length + (m - t) * a.length * b.length)

end GlyphTables.CommandLine
