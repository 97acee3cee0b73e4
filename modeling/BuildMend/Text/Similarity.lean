/-!
How similar two words are, and the names that a misspelt word may stand for.

* `commonBlock`: the longest block that two words share, the first of several.
* `matching`: the number of characters in such blocks, taken again on either side of the block.
* `closeNames`: the names that share at least three fifths of their characters with a word, of more
  than three the most similar ones, in the order of the alphabet.
-/

namespace BuildMend.Text

/-- The number of characters with which two words start alike. -/
def commonStart : List Char → List Char → Nat
  | a :: s, b :: t => if a == b then commonStart s t + 1 else 0
  | _, _ => 0

/-- A block that two words share: where it starts in each, and its length. -/
structure CommonBlock where
  left : Nat
  right : Nat
  length : Nat

/-- The longer of two blocks, the first if they are equally long. -/
def CommonBlock.better (a b : CommonBlock) : CommonBlock := if a.length < b.length then b else a

/-- The longest block that starts at the front of one word, at any place of another. -/
def blockAtFront (left : Nat) (s : List Char) : (right : Nat) → List Char → CommonBlock
  | right, [] => ⟨left, right, 0⟩
  | right, b :: t =>
    (CommonBlock.mk left right (commonStart s (b :: t))).better (blockAtFront left s (right + 1) t)

/-- The longest block that two words share from a place of the first on. -/
def commonBlockFrom (left : Nat) (t : List Char) : List Char → CommonBlock
  | [] => ⟨left, 0, 0⟩
  | a :: s => (blockAtFront left (a :: s) 0 t).better (commonBlockFrom (left + 1) t s)

/-- The longest block that two words share, the first of several. -/
def commonBlock (s t : List Char) : CommonBlock := commonBlockFrom 0 t s

/-- The number of characters in shared blocks, found with at most `fuel` divisions. -/
def matchingWithin : (fuel : Nat) → List Char → List Char → Nat
  | 0, _, _ => 0
  | fuel + 1, s, t =>
    let b := commonBlock s t
    if b.length = 0 then 0
    else
      matchingWithin fuel (s.take b.left) (t.take b.right) + b.length +
        matchingWithin fuel (s.drop (b.left + b.length)) (t.drop (b.right + b.length))

/-- The number of characters in the blocks that two words share. -/
def matching (s t : List Char) : Nat := matchingWithin (s.length + 1) s t

/-- A name with the number of its characters that it shares with a word. -/
structure Likeness where
  name : String
  shared : Nat
  total : Nat

/-- Whether the first likeness goes before the second: it is greater, or equally great and its name
stands later in the alphabet. -/
def Likeness.before (a b : Likeness) : Bool :=
  let left := a.shared * b.total
  let right := b.shared * a.total
  right < left || (left == right && decide (b.name ≤ a.name))

/-- The likeness of a name to a word. -/
def likeness (word : String) (name : String) : Likeness :=
  ⟨name, 2 * matching name.toList word.toList, name.length + word.length⟩

/-- The names, at most three, that are close to a word, in the order of the alphabet. -/
def closeNames (word : String) (names : List String) : List String :=
  let close := (names.map (likeness word)).filter fun l => 3 * l.total ≤ 5 * l.shared
  (((close.mergeSort Likeness.before).take 3).map (·.name)).mergeSort fun a b => decide (a ≤ b)

end BuildMend.Text
