import ModuleMock.Proofs.FileTree.Naming
import ModuleMock.Surface.Modules

/-!
# Keys identify files

The key of a module is told from the names in its path alone, whereas a file is opened name by name, and every place that
is passed on the way has to be a directory. `FileTree.read_eq_ok` says exactly how the two differ: a path opens the file at
the location that its names resolve to, if it opens at all, and it opens if the places on the way (`waypoint`) are
directories. So a key stands for one file, whatever path led to it (`key_identifies_file`).
-/

namespace ModuleMock

namespace FileTree

variable {t : FileTree} {cwd : Location} {s : String}

/-! ## The way of a path -/

/-- Where names lead from a location, told from the names alone. -/
def lead (l : Location) (names : List String) : Location := (names.filter (· ≠ ".")).foldl Path.step l

/-- Where the first `k` steps of a written path lead. -/
def waypoint (cwd : Location) (s : String) (k : Nat) : Location :=
  lead (if s.toList.head? = some '/' then [] else cwd) ((stepsOf s).take k)

/-- All places that a written path passes are directories. -/
def Passable (t : FileTree) (cwd : Location) (s : String) : Prop :=
  s ≠ "" ∧ ∀ k < (stepsOf s).length, t.item? (waypoint cwd s k) = some .directory

theorem lead_cons (l : Location) (name : String) (names : List String) :
    lead l (name :: names) = lead (if name = "." then l else Path.step l name) names := by
  by_cases h : name = "."
  · simp [lead, h]
  · simp [lead, h]

/-- The last waypoint of a path is where it resolves to. -/
theorem waypoint_length (cwd : Location) (s : String) :
    waypoint cwd s (stepsOf s).length = Path.resolve cwd (.ofString s) := by
  rw [waypoint, List.take_length, lead, stepsOf_filter, Path.resolve]
  by_cases ha : s.toList.head? = some '/'
  · rw [if_pos ha, if_pos ((Path.isAbsolute_ofString s).2 ha)]
    rfl
  · rw [if_neg ha, if_neg fun e => ha ((Path.isAbsolute_ofString s).1 e)]
    rfl

/-- Names can be followed if all places that they pass are directories. -/
theorem followFrom_eq_ok {names : List String} {l l' : Location} : t.followFrom l names = .ok l' ↔
    l' = lead l names ∧ ∀ k < names.length, t.item? (lead l (names.take k)) = some .directory := by
  induction names generalizing l with
  | nil => simp [followFrom, lead, eq_comm]
  | cons name names ih =>
    rw [followFrom]
    constructor
    · intro h
      split at h
      · cases h
      · cases h
      · rename_i hd
        obtain ⟨rfl, hway⟩ := ih.1 h
        refine ⟨(lead_cons l name names).symm, fun k hk => ?_⟩
        cases k with
        | zero => exact hd
        | succ k =>
          rw [List.take_succ_cons, lead_cons]
          exact hway k (by simpa using hk)
    · rintro ⟨rfl, hway⟩
      have hd : t.item? l = some .directory := hway 0 (by simp)
      rw [hd]
      refine ih.2 ⟨lead_cons l name names, fun k hk => ?_⟩
      have := hway (k + 1) (by simpa using hk)
      rwa [List.take_succ_cons, lead_cons] at this

/-- A path leads where it resolves to, if it is passable. -/
theorem follow_eq_ok {l : Location} :
    t.follow cwd s = .ok l ↔ t.Passable cwd s ∧ l = Path.resolve cwd (.ofString s) := by
  rw [← waypoint_length, waypoint, List.take_length, Passable, follow]
  by_cases hs : s = ""
  · simp [hs]
  · rw [if_neg hs, followFrom_eq_ok]
    simp only [ne_eq, hs, not_false_eq_true, true_and, waypoint]
    exact and_comm

/-- A file is read if its path is passable and it stands at the end. -/
theorem read_eq_ok {content : Bytes} : t.read cwd s = .ok content ↔
    t.Passable cwd s ∧ t.item? (Path.resolve cwd (.ofString s)) = some (.file content) := by
  unfold read
  cases hf : t.follow cwd s with
  | error fault =>
    have hway : ¬ t.Passable cwd s := fun h => by rw [follow_eq_ok.2 ⟨h, rfl⟩] at hf; cases hf
    simp [bind, Except.bind, hway]
  | ok l =>
    obtain ⟨hway, rfl⟩ := follow_eq_ok.1 hf
    simp only [bind, Except.bind, hway, true_and]
    split
    · rename_i hi
      simp [hi]
    · rename_i hi
      simp [hi]
    · rename_i hi
      simp [hi]

/-! ## Opening -/

/-- A written path opens the file at a location. -/
def Opens (t : FileTree) (cwd : Location) (s : String) (l : Location) : Prop :=
  t.follow cwd s = .ok l ∧ ∃ content, t.item? l = some (.file content)

/-- A path opens only what it resolves to. -/
theorem Opens.eq_resolve {l : Location} (h : t.Opens cwd s l) : l = Path.resolve cwd (.ofString s) :=
  (follow_eq_ok.1 h.1).2

/-- A file is opened by the absolute path of its location. -/
theorem opens_ofLocation (ht : t.Rooted) {l : Location} (hl : ∀ x ∈ l, IsName x) {content : Bytes}
    (hi : t.item? l = some (.file content)) : t.Opens cwd (Path.ofLocation l).toString l :=
  ⟨(follow_ofLocation hl).2 ⟨rfl, ht.stands (by simp [hi])⟩, content, hi⟩

end FileTree

namespace Modules

/-- The key of a module as an absolute path. -/
def keyPath (w : Workspace) (path : String) : String := (Path.ofLocation (key w path)).toString

variable {w : Workspace}

/-- A key that is written as a path has itself for key. -/
theorem key_keyPath (hcwd : ∀ x ∈ w.cwd, IsName x) (path : String) : key w (keyPath w path) = key w path :=
  resolve_toString_ofLocation (isName_resolve hcwd path) w.cwd

/-- Keys are written alike exactly if they are equal. -/
theorem keyPath_eq_iff (hcwd : ∀ x ∈ w.cwd, IsName x) {path path' : String} :
    keyPath w path = keyPath w path' ↔ key w path = key w path' :=
  ⟨toString_ofLocation_inj (isName_resolve hcwd path) (isName_resolve hcwd path'),
    fun h => by rw [keyPath, keyPath, h]⟩

/-- **Keys identify files.** A path opens a file exactly if all places that it passes are directories and the file stands
at its key. The absolute path of the key opens the same file; so paths that open the same file have the same key, paths
that open different ones have different keys, and the key of a key is that key. -/
theorem key_identifies_file (w : Workspace) (ht : w.tree.Rooted) (hcwd : ∀ x ∈ w.cwd, IsName x) :
    (∀ path content, w.tree.read w.cwd path = .ok content ↔
      w.tree.Passable w.cwd path ∧ w.tree.item? (key w path) = some (.file content)) ∧
    (∀ path l, w.tree.Opens w.cwd path l → l = key w path ∧ w.tree.Opens w.cwd (keyPath w path) l) ∧
    (∀ path path' l l', w.tree.Opens w.cwd path l → w.tree.Opens w.cwd path' l' →
      (keyPath w path = keyPath w path' ↔ l = l')) ∧
    ∀ path, keyPath w (keyPath w path) = keyPath w path := by
  refine ⟨fun path content => FileTree.read_eq_ok, fun path l h => ?_, fun path path' l l' h h' => ?_, fun path => ?_⟩
  · obtain rfl := h.eq_resolve
    obtain ⟨-, content, hi⟩ := h
    exact ⟨rfl, FileTree.opens_ofLocation ht (isName_resolve hcwd path) hi⟩
  · rw [keyPath_eq_iff hcwd, h.eq_resolve, h'.eq_resolve]
    rfl
  · rw [keyPath, key_keyPath hcwd, keyPath]

/-- A file beside a directory, seen from their parent. -/
def siblings : Workspace where
  tree := ⟨[(["app"], .directory), (["app", "lib"], .directory), (["app", "a.ts"], .file [0x31])]⟩
  cwd := ["app"]

/-- Three paths of one file: two of them open it, and one passes a place where nothing is. -/
theorem key_identifies_file_siblings :
    siblings.tree.Opens ["app"] "lib/.././a.ts" ["app", "a.ts"] ∧
      siblings.tree.Opens ["app"] "//app//a.ts" ["app", "a.ts"] ∧
      keyPath siblings "lib/.././a.ts" = keyPath siblings "//app//a.ts" ∧
      keyPath siblings "missing/../a.ts" = keyPath siblings "//app//a.ts" ∧
      ∀ content, siblings.tree.read ["app"] "missing/../a.ts" ≠ .ok content := by
  have ht : siblings.tree.Rooted := FileTree.rooted_of_entries (by decide)
  have hcwd : ∀ x ∈ siblings.cwd, IsName x := by decide
  have hup : siblings.tree.Opens ["app"] "lib/.././a.ts" ["app", "a.ts"] := ⟨by decide, [0x31], by decide⟩
  have hroot : siblings.tree.Opens ["app"] "//app//a.ts" ["app", "a.ts"] := ⟨by decide, [0x31], by decide⟩
  obtain ⟨hread, -, hsame, -⟩ := key_identifies_file siblings ht hcwd
  refine ⟨hup, hroot, (hsame _ _ _ _ hup hroot).2 rfl, by decide, fun content h => ?_⟩
  have hmissing := ((hread "missing/../a.ts" content).1 h).1.2 1 (by decide)
  exact absurd hmissing (by decide)

end Modules

end ModuleMock
