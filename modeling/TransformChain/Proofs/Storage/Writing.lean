import Mathlib.Data.List.Infix
import TransformChain.Proofs.Text.Splitting
import TransformChain.Storage

/-!
# Writing into a directory

A file that is written into a directory by its name alone stands in that directory, whatever the
path of the directory looks like.  Where nothing is in the way the file is added to the ones that
are there.
-/

namespace TransformChain

structure Path.IsFileName (name : String) : Prop where
  noSlash : '/' ∉ name.toList
  notEmpty : name ≠ ""
  notHere : name ≠ "."
  notUp : name ≠ ".."

namespace Files

def follow (path : List Char) : Option Place :=
  ((Text.splitChar '/' path).map String.ofList).foldl advance (some [])

theorem follow_append {front : List Char} {name : String} (h : '/' ∉ name.toList) :
    follow (front ++ '/' :: name.toList) = advance (follow front) name := by
  unfold follow
  rw [Text.splitChar_append, Text.splitChar_of_notMem h, List.map_append, List.foldl_append]
  simp

theorem advance_fileName (place : Place) {name : String} (h : Path.IsFileName name) :
    advance (some place) name = some (place ++ [name]) := by
  simp [advance, h.notEmpty, h.notHere, h.notUp]

theorem advance_empty (place : Option Place) : advance place "" = place := by
  cases place with
  | none => rfl
  | some place => simp [advance]

section Join

variable {directory name : String} {place : Place}

theorem toList_join (directory : String) (h : Path.IsFileName name) :
    (directory = "" ∧ Path.join directory name = name) ∨
      ∃ front, (Path.join directory name).toList = front ++ '/' :: name.toList ∧
        (directory.toList = front ∨ directory.toList = front ++ ['/']) ∧ directory ≠ "" := by
  have hhead : ¬name.toList.head? = some '/' := by
    intro hhead
    exact h.noSlash (List.mem_of_head? hhead)
  unfold Path.join
  rw [if_neg hhead]
  by_cases hempty : directory = ""
  · rw [if_pos hempty]
    exact Or.inl ⟨hempty, rfl⟩
  · rw [if_neg hempty]
    right
    by_cases hslash : directory.toList.getLast? = some '/'
    · rw [if_pos hslash]
      rcases List.getLast?_eq_some_iff.mp hslash with ⟨front, hfront⟩
      refine ⟨front, ?_, Or.inr hfront, hempty⟩
      rw [String.toList_append, hfront, List.append_assoc]
      rfl
    · rw [if_neg hslash]
      refine ⟨directory.toList, ?_, Or.inl rfl, hempty⟩
      simp

theorem namesFile_join (directory : String) (h : Path.IsFileName name) :
    Path.namesFile (Path.join directory name) = true := by
  have hlast : Text.afterLast '/' (Path.join directory name).toList = name.toList := by
    rcases toList_join directory h with ⟨-, hjoin⟩ | ⟨front, hjoin, -⟩
    · rw [hjoin, Text.afterLast_of_notMem h.noSlash]
    · rw [hjoin, Text.afterLast_append front h.noSlash]
  have hempty : name.toList ≠ [] := mt String.toList_eq_nil_iff.mp h.notEmpty
  have hhere : name.toList ≠ ['.'] := fun heq => h.notHere (String.toList_inj.mp heq)
  have hup : name.toList ≠ ['.', '.'] := fun heq => h.notUp (String.toList_inj.mp heq)
  simp [Path.namesFile, hlast, hempty, hhere, hup]

theorem place?_eq_some_iff {path : String} :
    place? path = some place ↔ Path.isRelative path = true ∧ follow path.toList = some place := by
  unfold place? follow
  split
  case isTrue h => simp [h]
  case isFalse h => simp [h]

theorem place?_join (h : place? directory = some place) (hname : Path.IsFileName name) :
    place? (Path.join directory name) = some (place ++ [name]) := by
  obtain ⟨hrelative, hfollow⟩ := place?_eq_some_iff.mp h
  rw [place?_eq_some_iff]
  rcases toList_join directory hname with ⟨rfl, hjoin⟩ | ⟨front, hjoin, hfront, hne⟩
  · have hplace : place = [] := by
      cases hfollow
      rfl
    have hhead : name.toList.head? ≠ some '/' := fun hhead =>
      hname.noSlash (List.mem_of_head? hhead)
    rw [hjoin, hplace]
    refine ⟨by simpa [Path.isRelative] using hhead, ?_⟩
    unfold follow
    rw [Text.splitChar_of_notMem hname.noSlash]
    simp [advance, hname.notEmpty, hname.notHere, hname.notUp]
  · have hbefore : follow front = some place := by
      rcases hfront with hfront | hfront
      · rw [← hfront]
        exact hfollow
      · have hslash : follow (front ++ '/' :: "".toList) = advance (follow front) "" :=
          follow_append (by simp)
        rw [hfront] at hfollow
        rw [← advance_empty (follow front), ← hslash]
        exact hfollow
    rw [hjoin, follow_append hname.noSlash, hbefore, advance_fileName place hname]
    refine ⟨?_, rfl⟩
    cases front with
    | nil =>
        rcases hfront with hfront | hfront
        · exact absurd (String.toList_eq_nil_iff.mp hfront) hne
        · simp [Path.isRelative, hfront] at hrelative
    | cons c front =>
        unfold Path.isRelative at hrelative ⊢
        rw [hjoin]
        rcases hfront with hfront | hfront <;> rw [hfront] at hrelative <;> exact hrelative

end Join

/-!
## Adding a file
-/

theorem prefix_of_mem_upward {above place : Place} (h : above ∈ upward place) :
    above <+: place := by
  induction place generalizing above with
  | nil => cases h
  | cons part rest ih =>
      rcases List.mem_cons.mp h with rfl | hrest
      · exact List.prefix_append [part] rest
      · rcases List.mem_map.mp hrest with ⟨below, hbelow, rfl⟩
        exact (List.prefix_cons_inj part).mpr (ih hbelow)

theorem self_mem_upward {place : Place} (h : place ≠ []) : place ∈ upward place := by
  induction place with
  | nil => exact absurd rfl h
  | cons part rest ih =>
      cases rest with
      | nil => exact List.mem_cons_self
      | cons next rest =>
          exact List.mem_cons_of_mem _ (List.mem_map_of_mem (ih (List.cons_ne_nil _ _)))

structure IsFree (files : Files) (place : Place) : Prop where
  noFile : ∀ entry ∈ files.files, ¬place <+: entry.1
  noDirectory : place ∉ files.directories

/-- A directory without anything in it, or one that is not there and can be made. -/
structure IsVacant (files : Files) (place : Place) : Prop where
  above : ∀ above ∈ upward place, files.isFile above = false
  noFile : ∀ entry ∈ files.files, ¬place <+: entry.1
  noDirectory : ∀ directory ∈ files.directories, place <+: directory → directory = place

def add (files : Files) (place : Place) (content : String) : Files :=
  { files with files := files.files ++ [(place, content)] }

section Adding

variable {files : Files} {place : Place} {name other : String}

theorem IsFree.isFile_eq_false (h : files.IsFree place) : files.isFile place = false := by
  have hfind : files.files.find? (fun entry => entry.1 == place) = none := by
    rw [List.find?_eq_none]
    intro entry hmem heq
    rw [beq_iff_eq] at heq
    exact h.noFile entry hmem (heq ▸ List.prefix_rfl)
  simp [isFile, find?, hfind]

theorem IsFree.write_eq (h : files.IsFree (place ++ [name])) (hplace : files.isDirectory place)
    (content : String) :
    files.write (place ++ [name]) content = some (files.add (place ++ [name]) content) := by
  have hdirectory : files.isDirectory (place ++ [name]) = false := by
    simp only [isDirectory, Bool.or_eq_false_iff, List.any_eq_false]
    refine ⟨⟨by simp, by simpa using h.noDirectory⟩, ?_⟩
    intro entry hmem hbelow
    rw [Bool.and_eq_true, List.isPrefixOf_iff_prefix] at hbelow
    exact h.noFile entry hmem hbelow.left
  have hset : files.set (place ++ [name]) content = files.add (place ++ [name]) content := by
    unfold set add
    rw [h.isFile_eq_false]
    rfl
  simp [write, hdirectory, hplace, hset]

theorem isDirectory_add (hplace : files.isDirectory place = true) (target : Place)
    (content : String) : (files.add target content).isDirectory place = true := by
  simp only [isDirectory, add, List.any_append, Bool.or_eq_true] at hplace ⊢
  rcases hplace with hmade | hbelow
  · exact Or.inl hmade
  · exact Or.inr (Or.inl hbelow)

theorem IsFree.add (h : files.IsFree (place ++ [name])) (hne : name ≠ other) (content : String) :
    (files.add (place ++ [other]) content).IsFree (place ++ [name]) := by
  refine ⟨?_, h.noDirectory⟩
  intro entry hmem hprefix
  rcases List.mem_append.mp hmem with hold | hnew
  · exact h.noFile entry hold hprefix
  · rw [List.mem_singleton.mp hnew, List.prefix_append_right_inj] at hprefix
    exact hne (List.singleton_prefix_cons_iff.mp hprefix)

theorem IsVacant.createDirectories_eq (h : files.IsVacant place) :
    files.createDirectories place =
      some { files with directories := files.directories ++ upward place } := by
  have hnone : (upward place).any files.isFile = false := by
    rw [List.any_eq_false]
    intro above hmem hfile
    rw [h.above above hmem] at hfile
    cases hfile
  simp [createDirectories, hnone]

theorem isDirectory_made (files : Files) (place : Place) :
    Files.isDirectory { files with directories := files.directories ++ upward place } place =
      true := by
  by_cases hempty : place = []
  · simp [isDirectory, hempty]
  · simp [isDirectory, self_mem_upward hempty]

theorem IsVacant.isFree (h : files.IsVacant place) (name : String) :
    Files.IsFree { files with directories := files.directories ++ upward place }
      (place ++ [name]) := by
  have hlonger : ¬place ++ [name] <+: place := by
    intro hprefix
    have hlength := hprefix.length_le
    rw [List.length_append, List.length_singleton] at hlength
    omega
  constructor
  case noFile =>
    intro entry hmem hprefix
    exact h.noFile entry hmem ((List.prefix_append place [name]).trans hprefix)
  case noDirectory =>
    intro hmem
    rcases List.mem_append.mp hmem with hold | hmade
    · have hsame := h.noDirectory _ hold (List.prefix_append place [name])
      exact hlonger ⟨[], by rw [List.append_nil, hsame]⟩
    · exact hlonger (prefix_of_mem_upward hmade)

end Adding

/-!
## Requests
-/

section Requests

variable {files : Files} {place : Place} {directory name : String}

theorem storage_createDirectories (hplace : place? directory = some place)
    (h : files.IsVacant place) :
    storage.createDirectories directory files =
      (true, { files with directories := files.directories ++ upward place }) := by
  change attempt createDirectories directory files = _
  simp [attempt, hplace, h.createDirectories_eq]

theorem storage_write (hplace : place? directory = some place) (hname : Path.IsFileName name)
    (hdirectory : files.isDirectory place = true) (h : files.IsFree (place ++ [name]))
    (content : String) :
    storage.write (Path.join directory name) content files =
      (true, files.add (place ++ [name]) content) := by
  have hwrite : storage.write (Path.join directory name) content =
      attempt (fun files place => files.write place content) (Path.join directory name) :=
    if_pos (namesFile_join directory hname)
  rw [hwrite]
  simp [attempt, place?_join hplace hname, h.write_eq hdirectory]

end Requests
end Files
end TransformChain
