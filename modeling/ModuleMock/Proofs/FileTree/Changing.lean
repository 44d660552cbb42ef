import ModuleMock.Proofs.FileTree.Reading

/-!
# What changes leave alone

`SameFiles T t t'` says that between two trees no file changes, comes or goes, files at the locations `T` apart. Writing a
file and making directories do no more than that (`write_sameFiles`, `makeDirectories_sameFiles`). Whatever making one
directory keeps, making a directory with all those above it keeps (`makeDirectories_invariant`).
-/

namespace ModuleMock.FileTree

/-! ## Items -/

theorem lookup_map_replace {l l' : Location} (i : Item) (h : l' ≠ l) (entries : List (Location × Item)) :
    (entries.map fun e => if e.1 = l then (l, i) else e).lookup l' = entries.lookup l' := by
  induction entries with
  | nil => rfl
  | cons e es ih =>
    rw [List.map_cons]
    by_cases he : e.1 = l
    · have h₁ : (l' == l) = false := beq_false_of_ne h
      have h₂ : (l' == e.1) = false := by rw [he]; exact h₁
      rw [if_pos he, List.lookup_cons, h₁, List.lookup_cons, h₂]
      exact ih
    · rw [if_neg he, List.lookup_cons, List.lookup_cons, ih]

/-- Putting an item changes nothing at other locations. -/
theorem item?_put_of_ne (t : FileTree) {l l' : Location} (i : Item) (h : l' ≠ l) :
    (t.put l i).item? l' = t.item? l' := by
  unfold item? put
  split
  · rfl
  · split
    · exact lookup_map_replace i h t.entries
    · have hl : (l' == l) = false := beq_false_of_ne h
      rw [List.lookup_append, List.lookup_cons, hl]
      simp

theorem lookup_map_self {l : Location} (i : Item) {entries : List (Location × Item)} (h : l ∈ entries.map (·.1)) :
    (entries.map fun e => if e.1 = l then (l, i) else e).lookup l = some i := by
  induction entries with
  | nil => simp at h
  | cons e es ih =>
    rw [List.map_cons]
    by_cases he : e.1 = l
    · rw [if_pos he]
      exact List.lookup_cons_self
    · have hl : (l == e.1) = false := beq_false_of_ne (Ne.symm he)
      rw [if_neg he, List.lookup_cons, hl]
      refine ih ?_
      rw [List.map_cons, List.mem_cons] at h
      exact h.resolve_left (Ne.symm he)

/-- What is put at a location other than the root is there. -/
theorem item?_put_self (t : FileTree) {l : Location} (i : Item) (h : l ≠ []) : (t.put l i).item? l = some i := by
  unfold item? put
  rw [if_neg h]
  split
  · rename_i hl
    exact lookup_map_self i hl
  · rename_i hl
    have hnone : t.entries.lookup l = none := by
      rw [List.lookup_eq_none_iff]
      intro e he
      exact bne_iff_ne.2 fun hle => hl (List.mem_map.2 ⟨e, he, hle.symm⟩)
    rw [List.lookup_append, hnone, Option.none_or]
    exact List.lookup_cons_self

/-- Removing takes away only what is below the removed place. -/
theorem item?_remove_of_not_below (t : FileTree) {l l' : Location} (h : ¬ l <+: l') :
    (t.remove l).item? l' = t.item? l' := by
  unfold item? remove
  split
  · rfl
  · induction t.entries with
    | nil => rfl
    | cons e es ih =>
      by_cases he : l <+: e.1
      · have hne : (l' == e.1) = false := beq_false_of_ne (by rintro rfl; exact h he)
        rw [List.filter_cons_of_neg (by simpa using he), List.lookup_cons, hne]
        exact ih
      · rw [List.filter_cons_of_pos (by simpa using he), List.lookup_cons, List.lookup_cons, ih]

/-! ## Changes -/

variable {t t' : FileTree} {cwd : Location} {s : String}

/-- A file is written where no directory is. -/
theorem write_eq_put {content : Bytes} (h : t.write cwd s content = .ok t') :
    t.item? (Path.resolve cwd (.ofString s)) ≠ some .directory ∧
      t' = t.put (Path.resolve cwd (.ofString s)) (.file content) := by
  unfold write at h
  cases hf : t.follow cwd s with
  | error fault => rw [hf] at h; cases h
  | ok l =>
    obtain rfl := follow_eq_resolve hf
    rw [hf] at h
    simp only [bind, Except.bind] at h
    split at h
    · cases h
    · rename_i hi
      exact ⟨by rw [hi]; simp, (Except.ok.inj h).symm⟩
    · rename_i hi
      split at h
      · exact ⟨by rw [hi]; simp, (Except.ok.inj h).symm⟩
      · cases h

/-- A directory is made where nothing is. -/
theorem makeDirectory_eq_put (h : t.makeDirectory cwd s = .ok t') :
    ∃ l, t.item? l = none ∧ t' = t.put l .directory := by
  unfold makeDirectory at h
  cases hf : t.follow cwd s with
  | error fault => rw [hf] at h; cases h
  | ok l =>
    rw [hf] at h
    simp only [bind, Except.bind] at h
    split at h
    · cases h
    · rename_i hi
      split at h
      · exact ⟨l, hi, (Except.ok.inj h).symm⟩
      · cases h

/-- Nothing is made where a directory is. -/
theorem makeDirectories_of_isDirectoryAt {p : Path} (h : t.isDirectoryAt cwd p.toString) (depth : Nat) :
    makeDirectories cwd (depth + 1) t p = (t, .ok ()) := by
  have hmake : t.makeDirectory cwd p.toString = .error .alreadyExists := by
    have hd := of_decide_eq_true h
    unfold find? at hd
    unfold makeDirectory
    cases hf : t.follow cwd p.toString with
    | error fault => rw [hf] at hd; cases hd
    | ok l =>
      rw [hf] at hd
      simp only at hd
      simp [bind, Except.bind, hd]
  simp [makeDirectories, hmake, h]

/-- What making one directory keeps, making several keeps. -/
theorem makeDirectories_invariant {P : FileTree → Prop} (cwd : Location)
    (hmake : ∀ t l, P t → t.item? l = none → P (t.put l .directory)) (depth : Nat) {t : FileTree} (ht : P t) (p : Path) :
    P (makeDirectories cwd depth t p).1 := by
  have hstep : ∀ {t t' : FileTree} {s : String}, P t → t.makeDirectory cwd s = .ok t' → P t' := by
    intro t t' s ht h
    obtain ⟨l, hl, rfl⟩ := makeDirectory_eq_put h
    exact hmake t l ht hl
  induction depth generalizing t p with
  | zero => exact ht
  | succ depth ih =>
    unfold makeDirectories
    split
    · rename_i hm
      exact hstep ht hm
    · split
      · exact ht
      · have hup := ih ht p.parent
        split
        · rename_i t' fault hm
          rwa [hm] at hup
        · rename_i t' hm
          rw [hm] at hup
          split
          · rename_i t'' hm'
            exact hstep hup hm'
          · split
            · exact hup
            · exact hup
    · split
      · exact ht
      · exact ht

/-! ## The same files -/

/-- From the first tree to the second no file changes, comes or goes, files at the given locations apart. -/
def SameFiles (T : List Location) (t t' : FileTree) : Prop :=
  ∀ l content, l ∉ T → (t'.item? l = some (.file content) ↔ t.item? l = some (.file content))

namespace SameFiles

variable {T : List Location} {t t' : FileTree} {l : Location}

theorem refl (T : List Location) (t : FileTree) : SameFiles T t t := fun _ _ _ => Iff.rfl

/-- A new directory changes no file. -/
theorem put_directory (h : SameFiles T t t') (hl : t'.item? l = none) : SameFiles T t (t'.put l .directory) := by
  intro k content hk
  rw [← h k content hk]
  by_cases hkl : k = l
  · have hne : l ≠ [] := by
      rintro rfl
      cases hl
    rw [hkl, item?_put_self t' .directory hne, hl]
    simp
  · rw [item?_put_of_ne t' .directory hkl]

/-- A change at one of the locations that may change changes no other file. -/
theorem put_mem (h : SameFiles T t t') (hl : l ∈ T) (i : Item) : SameFiles T t (t'.put l i) := by
  intro k content hk
  have hkl : k ≠ l := by
    rintro rfl
    exact hk hl
  rw [item?_put_of_ne t' i hkl]
  exact h k content hk

end SameFiles

/-- A write changes no file but its own. -/
theorem write_sameFiles {content : Bytes} (h : t.write cwd s content = .ok t') :
    SameFiles [Path.resolve cwd (.ofString s)] t t' := by
  obtain ⟨-, rfl⟩ := write_eq_put h
  exact (SameFiles.refl _ t).put_mem (by simp) _

/-- Making directories changes no file. -/
theorem makeDirectories_sameFiles (T : List Location) (cwd : Location) (depth : Nat) (t : FileTree) (p : Path) :
    SameFiles T t (makeDirectories cwd depth t p).1 :=
  makeDirectories_invariant cwd (fun _ _ h hl => h.put_directory hl) depth (.refl T t) p

end ModuleMock.FileTree
