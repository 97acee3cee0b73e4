import BuildMend.Text.Utf8
import BuildMend.World.Path

/-!
The files and directories of a system.

* `FileTree`: the files with their content, and the directories that were made for themselves.
* `FileTree.isDirectory`, `FileTree.content?`: what stands at a path.
* `FileTree.isTooLong`: the paths that cannot be looked for.
* `FileTree.write`: the tree in which a file has a content; `FileTree.content?_write` says that no other
  content changes.
* `FileTree.below`: every file and directory below a directory whose name has an ending, in the order
  of their names.

A directory exists when it was made or when something lies below it.  Double dots in a path are
followed only through directories that exist; above the root directory is the root directory.
-/

namespace BuildMend

open Text

/-- The files and directories by their paths from the root directory. -/
structure FileTree where
  files : List (Path × Utf8.Octets)
  directories : List Path

namespace FileTree

/-- Whether something lies below a path, or a directory was made there. -/
def holds (t : FileTree) (p : Path) : Bool :=
  p.isEmpty || t.directories.any (p.isPrefixOf ·) ||
    t.files.any fun (q, _) => p != q && p.isPrefixOf q

/-- The place that a name leads to from a directory. -/
def enter (above : Path) (name : String) : Path :=
  if name == ".." then above.dropLast else above ++ [name]

/-- Whether the names of a path lead from an existing directory to an existing directory. -/
def leadsToDirectory (t : FileTree) : (above : Path) → Path → Bool
  | above, [] => t.holds above
  | above, n :: rest => t.holds above && t.leadsToDirectory (enter above n) rest

/-- Whether a path is a directory. -/
def isDirectory (t : FileTree) (p : Path) : Bool := t.leadsToDirectory [] p

/-- Whether one of the names of a path is too long, and looked for in an existing directory. -/
def meetsLongName (t : FileTree) : (above : Path) → Path → Bool
  | _, [] => false
  | above, n :: rest =>
    t.holds above && (isLongName n || t.meetsLongName (enter above n) rest)

/-- Whether the system refuses to look for a path because its text or one of its names is too long;
it does not come to that when a name holds a null character. -/
def isTooLong (t : FileTree) (p : Path) : Bool :=
  !p.hasNull && (isLongPath p.fullText || t.meetsLongName [] p)

/-- The content of the file at a path. -/
def content? (t : FileTree) (p : Path) : Option Utf8.Octets :=
  (t.files.find? fun (q, _) => q == p).map (·.2)

/-- Whether a path is a file. -/
def isFile (t : FileTree) (p : Path) : Bool := (t.content? p).isSome

/-- The files with a content at a path; a new file comes last. -/
def setContent (p : Path) (content : Utf8.Octets) :
    List (Path × Utf8.Octets) → List (Path × Utf8.Octets)
  | [] => [(p, content)]
  | (q, old) :: rest =>
    if q == p then (q, content) :: rest else (q, old) :: setContent p content rest

/-- The tree in which the file at a path has a content. -/
def write (t : FileTree) (p : Path) (content : Utf8.Octets) : FileTree :=
  { t with files := setContent p content t.files }

/-- The content at a path after another has been set. -/
theorem find?_setContent (p q : Path) (content : Utf8.Octets) (files : List (Path × Utf8.Octets)) :
    ((setContent p content files).find? fun (r, _) => r == q).map (·.2) =
      if q = p then some content else (files.find? fun (r, _) => r == q).map (·.2) := by
  induction files with
  | nil =>
    by_cases h : q = p
    · simp [setContent, h]
    · simp [setContent, h, Ne.symm h]
  | cons f files ih =>
    obtain ⟨r, old⟩ := f
    by_cases hr : r = p
    · subst hr
      by_cases h : q = r
      · simp [setContent, h]
      · simp [setContent, h, Ne.symm h]
    · by_cases h : r = q
      · subst h
        simp [setContent, hr]
      · simpa [setContent, hr, h] using ih

/-- Writing a file changes the content there and nowhere else. -/
theorem content?_write (t : FileTree) (p q : Path) (content : Utf8.Octets) :
    (t.write p content).content? q = if q = p then some content else t.content? q :=
  find?_setContent p q content t.files

/-- The tree in which a directory has been made. -/
def addDirectory (t : FileTree) (p : Path) : FileTree :=
  { t with directories := t.directories ++ [p] }

/-- A path and every directory above it, but not the root. -/
def withParents : Path → List Path
  | [] => []
  | n :: rest => [n] :: (withParents rest).map (n :: ·)

/-- Every file and directory of the tree but its root, each once. -/
def places (t : FileTree) : List Path :=
  ((t.files.map (·.1) ++ t.directories).flatMap withParents).eraseDups

/-- Whether a path's last name has an ending. -/
def nameEndsWith (ending : String) (p : Path) : Bool :=
  match p.getLast? with
  | none => false
  | some n => ending.toList.isSuffixOf n.toList

/-- The files and directories below a directory whose name has an ending, in order. -/
def below (t : FileTree) (directory : Path) (ending : String) : List Path :=
  let found := t.places.filter fun p =>
    directory.isPrefixOf p && directory != p && nameEndsWith ending p
  found.mergeSort fun a b => !b.lex a fun x y => decide (x < y)

end FileTree

end BuildMend
