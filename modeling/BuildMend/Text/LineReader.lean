import BuildMend.Text.Blank
import BuildMend.Text.Utf8

/-!
Lines of an output that comes in pieces.

* `LineReader`: the complete lines so far, and the start of the next.
* `LineReader.feed`, `LineReader.ofPieces`: one more piece, and all pieces of an output.
* `LineReader.cut`: the lines that end in a string of octets, and the rest.
* `LineReader.ofPieces_eq`: the reader cuts the output as a whole; how it comes in pieces does not
  matter.
* `lineText`, `outputText`: the texts of a line and of an output.
-/

namespace BuildMend.Text

/-- The line feed. -/
def lineFeed : UInt8 := 10

/-- The complete lines of an output so far, the latest first, and the start of the next. -/
structure LineReader where
  lines : List Utf8.Octets := []
  pending : Utf8.Octets := []

namespace LineReader

/-- The lines that end in a string of octets, and the rest. -/
def cut (s : Utf8.Octets) : List Utf8.Octets × Utf8.Octets :=
  let parts := s.splitOn lineFeed
  (parts.dropLast, (parts.getLast?).getD [])

/-- One more piece of output; a piece without line feed only adds to the start of the next line. -/
def feed (r : LineReader) (piece : Utf8.Octets) : LineReader :=
  if piece.contains lineFeed then
    let (complete, rest) := cut (r.pending ++ piece)
    ⟨complete.reverse ++ r.lines, rest⟩
  else ⟨r.lines, r.pending ++ piece⟩

/-- The reader after all pieces of an output. -/
def ofPieces (pieces : List Utf8.Octets) : LineReader := pieces.foldl feed {}

/-- The complete lines in their order. -/
def complete (r : LineReader) : List Utf8.Octets := r.lines.reverse

/-- The lines of an output that has ended: its last line need not be complete. -/
def all (r : LineReader) : List Utf8.Octets :=
  if r.pending.isEmpty then r.complete else r.complete ++ [r.pending]

/-! ### Cutting -/

theorem cut_eq {s rest : Utf8.Octets} {lines : List Utf8.Octets}
    (h : s.splitOn lineFeed = lines ++ [rest]) : cut s = (lines, rest) := by
  simp [cut, h]

theorem splitOn_eq_cut (s : Utf8.Octets) : s.splitOn lineFeed = (cut s).1 ++ [(cut s).2] := by
  have h : s.splitOn lineFeed ≠ [] := List.splitOn_ne_nil _ _
  simp [cut, List.getLast?_eq_some_getLast h, List.dropLast_concat_getLast h]

/-- Without a line feed nothing is cut. -/
theorem cut_of_not_mem {s : Utf8.Octets} (h : lineFeed ∉ s) : cut s = ([], s) :=
  cut_eq (by simpa using List.splitOn_eq_singleton h)

theorem cut_lineFeed (s : Utf8.Octets) : cut (lineFeed :: s) = ([] :: (cut s).1, (cut s).2) := by
  apply cut_eq
  rw [List.splitOn_cons_eq_if_modifyHead, splitOn_eq_cut s]
  simp

theorem cut_cons {b : UInt8} (h : b ≠ lineFeed) (s : Utf8.Octets) :
    cut (b :: s) =
      match (cut s).1 with
      | [] => ([], b :: (cut s).2)
      | line :: lines => ((b :: line) :: lines, (cut s).2) := by
  have hs := splitOn_eq_cut s
  have hb : (b :: s).splitOn lineFeed = (s.splitOn lineFeed).modifyHead (b :: ·) := by
    simp [List.splitOn_cons_eq_if_modifyHead, h]
  split
  next hl => exact cut_eq (by simp [hb, hs, hl])
  next line lines hl => exact cut_eq (by simp [hb, hs, hl])

/-- No line feed stands in the start of the next line. -/
theorem lineFeed_not_mem_cut (s : Utf8.Octets) : lineFeed ∉ (cut s).2 := by
  induction s with
  | nil => simp [cut_of_not_mem]
  | cons b s ih =>
    by_cases h : b = lineFeed
    · rw [h, cut_lineFeed]
      exact ih
    · rw [cut_cons h]
      split
      · simpa [Ne.symm h] using ih
      · exact ih

/-- What follows an output goes on with the start of its next line. -/
theorem cut_append (a b : Utf8.Octets) :
    cut (a ++ b) = ((cut a).1 ++ (cut ((cut a).2 ++ b)).1, (cut ((cut a).2 ++ b)).2) := by
  induction a with
  | nil => simp [cut_of_not_mem]
  | cons x a ih =>
    by_cases h : x = lineFeed
    · simp [h, cut_lineFeed, ih]
    · rw [List.cons_append, cut_cons h, cut_cons h a, ih]
      cases hl : (cut a).1 with
      | nil => simp [cut_cons h]
      | cons line lines => simp

/-! ### Pieces -/

theorem feed_eq {r : LineReader} (h : lineFeed ∉ r.pending) (piece : Utf8.Octets) :
    r.feed piece =
      ⟨(cut (r.pending ++ piece)).1.reverse ++ r.lines, (cut (r.pending ++ piece)).2⟩ := by
  by_cases hp : lineFeed ∈ piece
  · simp [feed, hp]
  · simp [feed, hp, cut_of_not_mem, h]

theorem foldl_feed {r : LineReader} (h : lineFeed ∉ r.pending) (pieces : List Utf8.Octets) :
    pieces.foldl feed r =
      ⟨(cut (r.pending ++ pieces.flatten)).1.reverse ++ r.lines,
        (cut (r.pending ++ pieces.flatten)).2⟩ := by
  induction pieces generalizing r with
  | nil => simp [cut_of_not_mem h]
  | cons piece pieces ih =>
    rw [List.foldl_cons, feed_eq h, ih (lineFeed_not_mem_cut _)]
    rw [List.flatten_cons, ← List.append_assoc r.pending, cut_append (r.pending ++ piece)]
    simp

/-- The reader of an output cuts it as a whole. -/
theorem ofPieces_eq (pieces : List Utf8.Octets) :
    ofPieces pieces = ⟨(cut pieces.flatten).1.reverse, (cut pieces.flatten).2⟩ := by
  rw [ofPieces, foldl_feed (by simp)]
  simp

end LineReader

/-! ### Texts -/

/-- The text of a line, without the carriage returns at its end. -/
def lineText (line : Utf8.Octets) : String :=
  String.ofList (dropWhileEnd (· == '\r') (Utf8.decodeLossy line))

/-- The text of an output: each line ends in a line feed. -/
def outputText (lines : List String) : String :=
  String.join (lines.map (· ++ "\n"))

end BuildMend.Text
