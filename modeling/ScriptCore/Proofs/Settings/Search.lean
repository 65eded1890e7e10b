import Mathlib.Data.List.Induction
import Mathlib.Logic.Function.Iterate
import ScriptCore.Settings.Search

/-!
# The search for settings

The search goes up from a directory until it finds a settings file or is at
the root, which is above itself.  Every round leaves one directory behind, so
it comes to an end, and what it finds is the file that is nearest.
-/

namespace ScriptCore
namespace Path

def parent (path : Path) : Path :=
  path.dropLast

def IsName (part : String) : Prop :=
  part ≠ "" ∧ part ≠ "." ∧ part ≠ ".." ∧ '/' ∉ part.toList

def text (path : Path) : String :=
  "/" ++ "/".intercalate path

/-- The text starts at the root and every part of it is a name. -/
def IsClean (start : String) : Prop :=
  ∃ path : Path, (∀ name ∈ path, IsName name) ∧ path.text = start

variable {path directory : Path} {name : String}

/-!
## Paths and their texts
-/

theorem follow_name (hname : IsName name) : path.follow name = some (path ++ [name]) := by
  rcases hname with ⟨hempty, hdot, hdots, _⟩
  unfold follow
  simp [hempty, hdot, hdots]

theorem foldlM_follow (hnames : ∀ name ∈ path, IsName name) :
    path.foldlM follow directory = some (directory ++ path) := by
  induction path generalizing directory with
  | nil => simp
  | cons name rest ih =>
      rw [List.foldlM_cons, follow_name (hnames name List.mem_cons_self)]
      show rest.foldlM follow (directory ++ [name]) = _
      rw [ih fun other hother => hnames other (List.mem_cons_of_mem name hother)]
      simp

theorem parts_text (hnames : ∀ name ∈ path, IsName name) :
    (path.text.split '/').toList.map (·.copy) = "" :: (if path = [] then [""] else path) := by
  have hslash : ∀ parts : List String, (∀ part ∈ parts, '/' ∉ part.toList) → parts ≠ [] →
      (("/".intercalate parts).split '/').toList.map (·.copy) = parts := by
    intro parts hparts hne
    have hsplit := String.toList_split_intercalate hparts
    rw [if_neg hne] at hsplit
    exact hsplit
  have hnone : ∀ part ∈ "" :: path, '/' ∉ part.toList := by
    intro part hpart
    rcases List.mem_cons.mp hpart with rfl | hpart
    · simp
    · exact (hnames part hpart).2.2.2
  by_cases hroot : path = []
  · rw [hroot, if_pos rfl]
    exact hslash ["", ""] (by simp) (by simp)
  · rw [if_neg hroot]
    have htext : path.text = "/".intercalate ("" :: path) := by
      rw [String.intercalate_cons_of_ne_nil hroot, text, String.empty_append]
    rw [htext]
    exact hslash ("" :: path) hnone (by simp)

theorem ofText_text (hnames : ∀ name ∈ path, IsName name) : ofText path.text = some path := by
  unfold ofText
  rw [parts_text hnames, List.foldlM_cons]
  show List.foldlM follow [] _ = _
  by_cases hroot : path = []
  · rw [hroot]
    rfl
  · rw [if_neg hroot, foldlM_follow hnames]
    rfl

/-!
## The way up
-/

theorem upward_root : upward [] = [[]] := rfl

theorem upward_concat (path : Path) (name : String) :
    upward (path ++ [name]) = (path ++ [name]) :: upward path := by
  unfold upward
  rw [List.length_append, List.length_singleton, List.range_succ, List.map_append,
    List.reverse_append]
  simp only [List.map_cons, List.map_nil, List.reverse_cons, List.reverse_nil, List.nil_append,
    List.singleton_append]
  congr 1
  · rw [List.take_of_length_le (by simp)]
  · congr 1
    apply List.map_congr_left
    intro n hn
    exact List.take_append_of_le_length (Nat.le_of_lt_succ (List.mem_range.mp hn))

theorem parent_concat (path : Path) (name : String) : parent (path ++ [name]) = path :=
  List.dropLast_concat

theorem parent_ne (path : Path) (name : String) : parent (path ++ [name]) ≠ path ++ [name] := by
  rw [parent_concat]
  intro heq
  simpa using congrArg List.length heq

end Path

namespace FileTree

def Exists (t : FileTree) (path : Path) : Prop :=
  (t.get? path).isSome

variable {t : FileTree} {path : Path}

theorem exists_iff : t.Exists path ↔ path = [] ∨ ∃ e ∈ t.nodes, path <+: e.1 := by
  unfold Exists get?
  cases hlookup : t.nodes.lookup path with
  | some node =>
      rcases List.lookup_eq_some_iff.mp hlookup with ⟨before, after, hnodes, _⟩
      simp only [Option.isSome_some, true_iff]
      exact Or.inr ⟨(path, node), by simp [hnodes], List.prefix_refl path⟩
  | none => simp [Option.isSome_ite]

theorem display_concat (t : FileTree) (path : Path) (name : String) :
    t.display (path ++ [name]) = t.root ++ Path.text (path ++ [name]) := by
  unfold display Path.text
  rw [String.intercalate_cons_of_ne_nil (by simp), String.append_assoc]

end FileTree

namespace Settings

def HasFile (t : FileTree) (directory : Path) : Prop :=
  ∃ name ∈ fileNames, t.Exists (directory ++ [name])

def preferred (t : FileTree) (directory : Path) : String :=
  if (t.get? (directory ++ ["tessera.yaml"])).isSome then "tessera.yaml" else "tessera.yml"

/-- The nearest directory with a settings file, among a directory and those above it. -/
structure IsNearest (t : FileTree) (directory nearest : Path) : Prop where
  above : nearest <+: directory
  hasFile : HasFile t nearest
  nearer : ∀ other, other <+: directory → HasFile t other → other <+: nearest

variable {t : FileTree} {directory path nearest : Path} {name : String}

/-!
## One directory
-/

theorem hasFile_iff :
    HasFile t directory ↔
      t.Exists (directory ++ ["tessera.yaml"]) ∨ t.Exists (directory ++ ["tessera.yml"]) := by
  simp [HasFile, fileNames]

theorem fileIn?_eq_none_iff : fileIn? t directory = none ↔ ¬ HasFile t directory := by
  simp [fileIn?, HasFile, FileTree.Exists]

theorem fileIn?_eq (hfile : HasFile t directory) :
    fileIn? t directory = some (directory ++ [preferred t directory]) := by
  unfold fileIn? fileNames preferred
  rw [hasFile_iff] at hfile
  by_cases hyaml : t.Exists (directory ++ ["tessera.yaml"])
  · have hsome : (t.get? (directory ++ ["tessera.yaml"])).isSome = true := hyaml
    simp [hsome]
  · have hnone : (t.get? (directory ++ ["tessera.yaml"])).isSome = false := by
      simpa [FileTree.Exists] using hyaml
    have hyml : (t.get? (directory ++ ["tessera.yml"])).isSome = true := by
      rcases hfile with hfile | hfile
      · exact absurd hfile hyaml
      · exact hfile
    simp [hnone, hyml]

/-!
## All directories up to the root
-/

theorem find?_root (t : FileTree) : find? t [] = fileIn? t [] := by
  unfold find?
  rw [Path.upward_root, List.findSome?_singleton]

theorem find?_concat (t : FileTree) (directory : Path) (name : String) :
    find? t (directory ++ [name]) =
      (fileIn? t (directory ++ [name])).or (find? t directory) := by
  unfold find?
  rw [Path.upward_concat, List.findSome?_cons]
  cases fileIn? t (directory ++ [name]) <;> rfl

theorem isNearest_self (hfile : HasFile t directory) :
    IsNearest t directory nearest ↔ nearest = directory := by
  constructor
  · intro hnearest
    have hlonger := hnearest.nearer directory (List.prefix_refl directory) hfile
    exact hnearest.above.eq_of_length_le hlonger.length_le
  · rintro rfl
    exact ⟨List.prefix_refl _, hfile, fun _ hother _ => hother⟩

theorem isNearest_root (hnone : ¬ HasFile t []) : ¬ IsNearest t [] nearest := by
  intro hnearest
  have hroot := List.prefix_nil.mp hnearest.above
  exact hnone (hroot ▸ hnearest.hasFile)

theorem isNearest_concat (hnone : ¬ HasFile t (directory ++ [name])) :
    IsNearest t (directory ++ [name]) nearest ↔ IsNearest t directory nearest := by
  have habove : ∀ other, HasFile t other →
      (other <+: directory ++ [name] ↔ other <+: directory) := by
    intro other hother
    rw [List.prefix_concat_iff]
    constructor
    · rintro (rfl | hfront)
      · exact absurd hother hnone
      · exact hfront
    · exact Or.inr
  constructor
  · rintro ⟨hfront, hfile, hnearer⟩
    refine ⟨(habove _ hfile).mp hfront, hfile, ?_⟩
    intro other hother hotherFile
    exact hnearer other ((habove _ hotherFile).mpr hother) hotherFile
  · rintro ⟨hfront, hfile, hnearer⟩
    refine ⟨(habove _ hfile).mpr hfront, hfile, ?_⟩
    intro other hother hotherFile
    exact hnearer other ((habove _ hotherFile).mp hother) hotherFile

theorem find?_eq_some_iff :
    find? t directory = some path ↔
      ∃ nearest, IsNearest t directory nearest ∧ path = nearest ++ [preferred t nearest] := by
  induction directory using List.reverseRecOn with
  | nil =>
      rw [find?_root]
      by_cases hfile : HasFile t []
      · simp [fileIn?_eq hfile, isNearest_self hfile, eq_comm]
      · simp [fileIn?_eq_none_iff.mpr hfile, isNearest_root hfile]
  | append_singleton directory name ih =>
      rw [find?_concat]
      by_cases hfile : HasFile t (directory ++ [name])
      · simp [fileIn?_eq hfile, isNearest_self hfile, eq_comm]
      · simp [fileIn?_eq_none_iff.mpr hfile, isNearest_concat hfile, ih]

theorem find?_eq_none_iff :
    find? t directory = none ↔ ∀ above, above <+: directory → ¬ HasFile t above := by
  induction directory using List.reverseRecOn with
  | nil => simp [find?_root, fileIn?_eq_none_iff]
  | append_singleton directory name ih =>
      rw [find?_concat, Option.or_eq_none_iff, fileIn?_eq_none_iff, ih]
      constructor
      · rintro ⟨hhere, habove⟩ other hother
        rcases List.prefix_concat_iff.mp hother with rfl | hfront
        · exact hhere
        · exact habove other hfront
      · intro hall
        refine ⟨hall _ (List.prefix_refl _), ?_⟩
        intro other hother
        exact hall other (hother.trans (List.prefix_append directory [name]))

/-!
## Round by round
-/

/-- The search is at a directory, or it is over. -/
inductive Search where
  | looking (directory : Path)
  | ended (found : Option Path)

namespace Search

/-- One round: look into the directory, or else go to the one above it. -/
def step (t : FileTree) : Search → Search
  | .looking directory =>
      match fileIn? t directory with
      | some path => .ended (some path)
      | none => if directory.parent = directory then .ended none else .looking directory.parent
  | .ended found => .ended found

def result (t : FileTree) : Search → Option Path
  | .looking directory => find? t directory
  | .ended found => found

def left : Search → Nat
  | .looking directory => directory.length + 1
  | .ended _ => 0

theorem step_found (hfound : fileIn? t directory = some path) :
    (looking directory).step t = .ended (some path) := by
  rw [step, hfound]

theorem step_root (hnone : fileIn? t [] = none) : (looking []).step t = .ended none := by
  rw [step, hnone]
  rfl

theorem step_up (hnone : fileIn? t (directory ++ [name]) = none) :
    (looking (directory ++ [name])).step t = .looking directory := by
  rw [step, hnone]
  show (if _ then _ else _) = _
  rw [if_neg (Path.parent_ne directory name), Path.parent_concat]

theorem step_spec (t : FileTree) (s : Search) :
    (s.step t).result t = s.result t ∧ (s.step t).left ≤ s.left - 1 := by
  cases s with
  | ended found => exact ⟨rfl, Nat.le_refl 0⟩
  | looking directory =>
      rcases List.eq_nil_or_concat directory with rfl | ⟨above, name, rfl⟩
      · cases hfile : fileIn? t [] with
        | some path =>
            rw [step_found hfile]
            exact ⟨by rw [result, result, find?_root, hfile], Nat.zero_le _⟩
        | none =>
            rw [step_root hfile]
            exact ⟨by rw [result, result, find?_root, hfile], Nat.zero_le _⟩
      · rw [List.concat_eq_append]
        cases hfile : fileIn? t (above ++ [name]) with
        | some path =>
            rw [step_found hfile]
            exact ⟨by rw [result, result, find?_concat, hfile, Option.some_or], Nat.zero_le _⟩
        | none =>
            rw [step_up hfile]
            exact ⟨by rw [result, result, find?_concat, hfile, Option.none_or], by simp [left]⟩

theorem iterate_spec (t : FileTree) (rounds : Nat) (s : Search) :
    ((step t)^[rounds] s).result t = s.result t ∧
      ((step t)^[rounds] s).left ≤ s.left - rounds := by
  induction rounds generalizing s with
  | zero => exact ⟨rfl, Nat.le_refl _⟩
  | succ rounds ih =>
      rw [Function.iterate_succ_apply]
      rcases step_spec t s with ⟨hresult, hleft⟩
      rcases ih (s.step t) with ⟨hresults, hlefts⟩
      exact ⟨hresults.trans hresult, by omega⟩

theorem ended_of_left {s : Search} (hleft : s.left = 0) : s = .ended (s.result t) := by
  cases s with
  | ended found => rfl
  | looking directory => cases hleft

theorem iterate_ended (t : FileTree) {rounds : Nat} (hrounds : directory.length < rounds) :
    (step t)^[rounds] (looking directory) = .ended (find? t directory) := by
  rcases iterate_spec t rounds (looking directory) with ⟨hresult, hleft⟩
  have hended : ((step t)^[rounds] (looking directory)).left = 0 := by
    rw [left] at hleft
    omega
  rw [ended_of_left hended, hresult]
  rfl

end Search

/-- From every directory that is given by a clean text, the search comes to an end.  It finds the
preferred settings file of the nearest directory that has one, among the directory and all those
above it, and nothing if there is none up to the root. -/
theorem nearest_file_found (t : FileTree) {start : String} (hclean : Path.IsClean start) :
    ∃ directory : Path, Path.ofText start = some directory ∧ directory.text = start ∧
      (∀ rounds, directory.length < rounds →
        (Search.step t)^[rounds] (.looking directory) = .ended (find? t directory)) ∧
      (∀ path, find? t directory = some path ↔
        ∃ nearest, IsNearest t directory nearest ∧ path = nearest ++ [preferred t nearest]) ∧
      (∀ path, find? t directory = some path → t.display path = t.root ++ path.text) ∧
      (find? t directory = none ↔ ∀ above, above <+: directory → ¬ HasFile t above) := by
  rcases hclean with ⟨directory, hnames, htext⟩
  refine ⟨directory, ?_, htext, ?_, ?_, ?_, find?_eq_none_iff⟩
  · rw [← htext]
    exact Path.ofText_text hnames
  · intro rounds hrounds
    exact Search.iterate_ended t hrounds
  · intro path
    exact find?_eq_some_iff
  · intro path hfound
    rcases find?_eq_some_iff.mp hfound with ⟨nearest, _, rfl⟩
    exact t.display_concat nearest _

def twoFiles : FileTree where
  root := ""
  nodes :=
    [(["tessera.yaml"], .file ""), (["a", "tessera.yml"], .file ""), (["a", "b"], .directory)]

theorem found_above_missing_directory :
    Path.IsClean "/a/b/c" ∧ ¬ twoFiles.Exists ["a", "b", "c"] ∧
      IsNearest twoFiles ["a", "b", "c"] ["a"] ∧
      (find? twoFiles ["a", "b", "c"]).map twoFiles.display = some "/a/tessera.yml" := by
  have hnames : ∀ name ∈ ["a", "b", "c"], Path.IsName name := by simp [Path.IsName]
  have hclean : Path.IsClean "/a/b/c" := ⟨["a", "b", "c"], hnames, rfl⟩
  have hfound : find? twoFiles ["a", "b", "c"] = some ["a", "tessera.yml"] := by decide +kernel
  rcases nearest_file_found twoFiles hclean with ⟨directory, hread, _, _, hsome, hdisplay, _⟩
  cases (Path.ofText_text hnames).symm.trans hread
  rcases (hsome _).mp hfound with ⟨nearest, hnearest, hpath⟩
  have ha : nearest = ["a"] := by
    have hparent := congrArg List.dropLast hpath
    rw [List.dropLast_concat] at hparent
    exact hparent.symm
  refine ⟨hclean, ?_, ha ▸ hnearest, ?_⟩
  · simp [FileTree.exists_iff, twoFiles]
  · rw [hfound]
    exact congrArg some (hdisplay _ hfound)

end Settings
end ScriptCore
