import BuildMend.World.FileTree
import Mathlib

/-!
Trees with files and directories at the same places.

* `FileTree.SamePlaces`: two trees differ in nothing but what their files hold.
* `FileTree.SamePlaces.isDirectory_eq`, `FileTree.SamePlaces.isTooLong_eq`,
  `FileTree.SamePlaces.below_eq`: what does not depend on what files hold.
* `FileTree.samePlaces_write`: writing a file that exists makes no place.
* `FileTree.nodup_below`, `FileTree.nameEndsWith_of_mem_below`: the places below a directory.
-/

namespace BuildMend.FileTree

open Text

variable {t v u : FileTree}

/-! ### Places that stay -/

/-- Two trees differ in nothing but what their files hold. -/
structure SamePlaces (t v : FileTree) : Prop where
  directories : v.directories = t.directories
  files : v.files.map (·.1) = t.files.map (·.1)

namespace SamePlaces

lemma refl (t : FileTree) : t.SamePlaces t := ⟨rfl, rfl⟩

lemma trans (h : t.SamePlaces v) (h' : v.SamePlaces u) : t.SamePlaces u :=
  ⟨h'.directories.trans h.directories, h'.files.trans h.files⟩

lemma holds_eq (h : t.SamePlaces v) (p : Path) : v.holds p = t.holds p := by
  have hany (s : FileTree) : s.holds p = (p.isEmpty || s.directories.any (p.isPrefixOf ·) ||
      (s.files.map (·.1)).any fun q => p != q && p.isPrefixOf q) := by
    rw [List.any_map]
    rfl
  rw [hany, hany, h.files, h.directories]

lemma leadsToDirectory_eq (h : t.SamePlaces v) (above p : Path) :
    v.leadsToDirectory above p = t.leadsToDirectory above p := by
  induction p generalizing above with
  | nil => exact h.holds_eq above
  | cons n rest ih => rw [leadsToDirectory, leadsToDirectory, h.holds_eq, ih]

lemma isDirectory_eq (h : t.SamePlaces v) (p : Path) : v.isDirectory p = t.isDirectory p :=
  h.leadsToDirectory_eq [] p

lemma meetsLongName_eq (h : t.SamePlaces v) (above p : Path) :
    v.meetsLongName above p = t.meetsLongName above p := by
  induction p generalizing above with
  | nil => rfl
  | cons n rest ih => rw [meetsLongName, meetsLongName, h.holds_eq, ih]

lemma isTooLong_eq (h : t.SamePlaces v) (p : Path) : v.isTooLong p = t.isTooLong p := by
  rw [isTooLong, isTooLong, h.meetsLongName_eq]

lemma below_eq (h : t.SamePlaces v) (directory : Path) (ending : String) :
    v.below directory ending = t.below directory ending := by
  rw [below, below, places, places, h.files, h.directories]

end SamePlaces

lemma map_fst_setContent {p : Path} {files : List (Path × Utf8.Octets)}
    (h : ((files.find? fun (q, _) => q == p).map (·.2)).isSome = true) (content : Utf8.Octets) :
    (setContent p content files).map (·.1) = files.map (·.1) := by
  induction files with
  | nil => cases h
  | cons f files ih =>
    obtain ⟨q, old⟩ := f
    by_cases hq : q = p
    · simp [setContent, hq]
    · have hrest : ((files.find? fun (r, _) => r == p).map (·.2)).isSome = true := by
        simpa [hq] using h
      simpa [setContent, hq] using ih hrest

/-- Writing a file that exists makes no place. -/
lemma samePlaces_write {p : Path} (h : t.isFile p = true) (content : Utf8.Octets) :
    t.SamePlaces (t.write p content) :=
  ⟨rfl, map_fst_setContent h content⟩

/-! ### The places below a directory -/

lemma nodup_eraseDups {α : Type} [BEq α] [LawfulBEq α] (l : List α) : l.eraseDups.Nodup := by
  induction hn : l.length using Nat.strongRecOn generalizing l with
  | ind n ih =>
    cases l with
    | nil => simp
    | cons a l =>
      have hlt : (l.filter fun b => !b == a).length < n := by
        have hle := List.length_filter_le (fun b => !b == a) l
        rw [← hn, List.length_cons]
        omega
      rw [List.eraseDups_cons, List.nodup_cons]
      refine ⟨fun h => ?_, ih _ hlt _ rfl⟩
      simpa using List.mem_eraseDups.mp h

lemma nameEndsWith_of_mem_below {directory p : Path} {ending : String}
    (h : p ∈ t.below directory ending) : nameEndsWith ending p = true := by
  rw [below, List.mem_mergeSort, List.mem_filter] at h
  simp only [Bool.and_eq_true] at h
  exact h.2.2

/-- No place stands twice among those below a directory. -/
lemma nodup_below (t : FileTree) (directory : Path) (ending : String) :
    (t.below directory ending).Nodup := by
  have hplaces : t.places.Nodup := nodup_eraseDups _
  exact (List.mergeSort_perm _ _).nodup_iff.mpr (hplaces.filter _)

end BuildMend.FileTree
