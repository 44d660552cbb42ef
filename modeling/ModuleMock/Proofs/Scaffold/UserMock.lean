import ModuleMock.Proofs.Scaffold.Footprint

/-!
# Mocks for editing

A mock file that a user may have edited is never changed by generating files again. `scaffold` writes three files beside a
module; two of them have names that no mock for editing has, and the third is written only where nothing stands. So
over any run of events (`Event`) each of these files keeps its content, and a report tells which of the two was the case.
-/

namespace ModuleMock

/-- A location whose name is that of a mock for editing. -/
def IsUserMock (l : Location) : Prop := ∃ directory stem, l = directory ++ [stem ++ ".mock.ts"]

/-! ## Names of mocks for editing -/

/-- The automatic mock is no user's mock. -/
theorem not_isUserMock_autoMock (l : Location) : ¬ IsUserMock (l ++ ["_mock.auto" ++ ".ts"]) := by
  rintro ⟨directory, stem, h⟩
  have hname := congrArg (fun l => l.getLast?.map fun x : String => x.toList.reverse) h
  simp at hname

/-- The declaration file is no user's mock. -/
theorem not_isUserMock_declaration (l : Location) (id : String) : ¬ IsUserMock (l ++ ["_" ++ id ++ ".d.ts"]) := by
  rintro ⟨directory, stem, h⟩
  have hname := congrArg (fun l => l.getLast?.map fun x : String => x.toList.reverse) h
  simp at hname

/-! ## Scaffolding -/

section

variable {cwd l : Location}

/-- What stands at the place of the mock for editing stays, whatever becomes of scaffolding. -/
theorem Scaffolded.item?_userMock {w : Workspace} {mount : String} {r : Except FileFault Report} {t' : FileTree}
    (h : Scaffolded w l mount r t') (hsome : (w.tree.item? (Places.beside l).userMock).isSome) :
    t'.item? (Places.beside l).userMock = w.tree.item? (Places.beside l).userMock := by
  obtain ⟨-, hauto, hdecl⟩ := Places.ne_of_nodup (Places.nodup_beside l)
  cases h with
  | unread => rfl
  | noAutoMock => rfl
  | noDeclaration => exact FileTree.item?_put_of_ne _ _ hauto
  | refreshed => exact FileTree.item?_refresh hauto hdecl _ _
  | completed _ _ _ hnone => simp [hnone] at hsome

/-- A scaffold keeps the content of every user's mock. -/
theorem ensures_scaffold_file (hcwd : ∀ x ∈ cwd, IsName x) (hl : IsUserMock l) (path mount : String) (content : Bytes) :
    Job.Ensures (fun t => t.item? l = some (.file content)) (scaffold cwd path mount)
      (fun _ t => t.item? l = some (.file content)) (fun t => t.item? l = some (.file content)) := by
  refine .of_after fun d hd => ?_
  have h := scaffolded_outcome hcwd path mount d
  by_cases hplace : l ∈ (Places.beside (Path.resolve cwd (.ofString path))).toList
  · -- of the generated files only the third has such a name
    simp only [Places.toList, List.mem_cons, List.not_mem_nil, or_false] at hplace
    rcases hplace with rfl | rfl | rfl
    · exact absurd hl (not_isUserMock_autoMock _)
    · exact absurd hl (not_isUserMock_declaration _ _)
    · rw [h.item?_userMock (by rw [hd]; rfl), hd]
  · rw [h.elsewhere hplace, hd]

/-- So does a bundle that is not written over it. -/
theorem ensures_bundle_file (hcwd : ∀ x ∈ cwd, IsName x) (hl : IsUserMock l) (compiled : String) {out : String}
    (hout : Path.resolve cwd (.ofString out) ≠ l) (path mount : String) (content : Bytes) :
    Job.Ensures (fun t => t.item? l = some (.file content)) (bundle cwd compiled out path mount)
      (fun _ t => t.item? l = some (.file content)) (fun t => t.item? l = some (.file content)) := by
  have hnames := isName_resolve hcwd path
  have hplace : l ∉ [Path.resolve cwd (.ofString out),
      Path.resolve cwd (GeneratedFiles.beside (entryPath cwd path)).declaration] := by
    rw [entryPath, Places.files_beside hnames,
      resolve_ofLocation (Places.names_beside hnames (Places.declaration_mem _))]
    simp only [List.mem_cons, List.not_mem_nil, or_false]
    rintro (rfl | rfl)
    · exact hout rfl
    · exact not_isUserMock_declaration _ _ hl
  exact .of_after fun d hd => ((bundleFootprint hcwd compiled out path mount d).elsewhere l content hplace).2 hd

end

/-! ## Reports -/

section

variable {cwd : Location}

/-- The written path of the mock for editing of the module at a path. -/
def userMockPath (cwd : Location) (path : String) : String :=
  (GeneratedFiles.beside (.ofLocation (Path.resolve cwd (.ofString path)))).userMock.toString

/-- The user's mock is reported as skipped if it was there, and as written otherwise. -/
theorem ensures_scaffold_report (hcwd : ∀ x ∈ cwd, IsName x) (path mount : String) (t₀ : FileTree) :
    Job.Ensures (fun t => t = t₀) (scaffold cwd path mount)
      (fun report _ =>
        (userMockPath cwd path ∈ report.skipped ↔ t₀.existsAt cwd (userMockPath cwd path)) ∧
          (userMockPath cwd path ∈ report.written ↔ ¬ t₀.existsAt cwd (userMockPath cwd path)))
      (fun _ => True) := by
  have hnames := isName_resolve hcwd path
  refine .of_results fun d report d' hd ho => ?_
  subst hd
  have h := scaffolded_outcome hcwd path mount d
  rw [ho] at h
  obtain ⟨text, hread, rfl, -⟩ := h.of_ok hnames
  have hr := Places.ready_beside hnames hread
  obtain ⟨hwritten, hskipped⟩ := userMock_mem_reportAt hnames ⟨d.tree, cwd⟩ text
    (d.tree.item? (Places.beside (Path.resolve cwd (.ofString path))).userMock).isNone
  simp only [userMockPath, Places.files_beside hnames]
  rw [hwritten, hskipped,
    FileTree.existsAt_ofLocation (hr.names _ (Places.userMock_mem _)) (hr.stands _ (Places.userMock_mem _))]
  cases d.tree.item? (Places.beside (Path.resolve cwd (.ofString path))).userMock <;> simp

end

/-! ## Runs -/

/-- What may happen to a tree: files are generated, or a user writes a file or deletes a file or directory. -/
inductive Event where
  | scaffold (path mount : String)
  | bundle (compiled out path mount : String)
  | write (place : String) (content : Bytes)
  | delete (place : String)

/-- The desk after an event, whether it succeeds or fails. -/
def Event.run (cwd : Location) (d : Desk) : Event → Desk
  | .scaffold path mount => ((ModuleMock.scaffold cwd path mount).outcome d).2
  | .bundle compiled out path mount => ((ModuleMock.bundle cwd compiled out path mount).outcome d).2
  | .write place content =>
    let p := Path.ofString place
    let tree := (FileTree.makeDirectories cwd (p.parts.length + 1) d.tree p.parent).1
    match tree.write cwd p.toString content with
    | .ok tree' => { d with tree := tree' }
    | .error _ => { d with tree }
  | .delete place => { d with tree := d.tree.remove (Path.resolve cwd (.ofString place)) }

/-- The event does not aim at the location: it is no bundle written there, nor does a user write or delete it. -/
def Event.Spares (cwd l : Location) : Event → Prop
  | .scaffold _ _ => True
  | .bundle _ out _ _ => Path.resolve cwd (.ofString out) ≠ l
  | .write place _ => Path.resolve cwd (.ofString place) ≠ l
  | .delete place => ¬ Path.resolve cwd (.ofString place) <+: l

instance (cwd l : Location) : (e : Event) → Decidable (e.Spares cwd l)
  | .scaffold _ _ => inferInstanceAs (Decidable True)
  | .bundle _ _ _ _ => inferInstanceAs (Decidable (_ ≠ _))
  | .write _ _ => inferInstanceAs (Decidable (_ ≠ _))
  | .delete _ => inferInstanceAs (Decidable (¬ _))

/-- Each event that spares a user's mock keeps its content. -/
theorem Event.run_file {cwd l : Location} {e : Event} {d : Desk} {content : Bytes} (hcwd : ∀ x ∈ cwd, IsName x)
    (hl : IsUserMock l) (he : e.Spares cwd l) (h : d.tree.item? l = some (.file content)) :
    (e.run cwd d).tree.item? l = some (.file content) := by
  cases e with
  | scaffold path mount =>
    have hafter := (ensures_scaffold_file hcwd hl path mount content).after h
    unfold Event.run
    exact hafter
  | bundle compiled out path mount =>
    have hafter := (ensures_bundle_file hcwd hl compiled he path mount content).after h
    unfold Event.run
    exact hafter
  | write place content' =>
    have hplace : l ∉ [Path.resolve cwd (.ofString place)] := by simpa using Ne.symm he
    have hmade := (FileTree.makeDirectories_sameFiles _ cwd ((Path.ofString place).parts.length + 1) d.tree
      (Path.ofString place).parent l content hplace).2 h
    unfold Event.run
    dsimp only
    split
    · rename_i tree' hw
      have hsame := FileTree.write_sameFiles hw
      rw [Path.ofString_toString (Path.proper_ofString place)] at hsame
      exact (hsame l content hplace).2 hmade
    · exact hmade
  | delete place =>
    unfold Event.run
    rwa [FileTree.item?_remove_of_not_below d.tree he]

/-- A run of such events keeps its content. -/
theorem run_file {cwd l : Location} {content : Bytes} (hcwd : ∀ x ∈ cwd, IsName x) (hl : IsUserMock l)
    (events : List Event) {d : Desk} (hs : ∀ e ∈ events, e.Spares cwd l) (h : d.tree.item? l = some (.file content)) :
    (events.foldl (Event.run cwd) d).tree.item? l = some (.file content) := by
  induction events generalizing d with
  | nil => exact h
  | cons e es ih => exact ih (fun e' he' => hs e' (by simp [he'])) (Event.run_file hcwd hl (hs e (by simp)) h)

/-- Mocks for editing are never overwritten. Whatever events there are that do not aim at such a file, it keeps its
content, and a report of scaffolding names the mock of its module as skipped if it existed before, and as written if
not. -/
theorem userMock_never_overwritten (cwd : Location) (hcwd : ∀ x ∈ cwd, IsName x) :
    (∀ (events : List Event) (d : Desk) (l : Location) (content : Bytes), IsUserMock l →
        (∀ e ∈ events, e.Spares cwd l) → d.tree.item? l = some (.file content) →
        (events.foldl (Event.run cwd) d).tree.item? l = some (.file content)) ∧
      ∀ (path mount : String) (d d' : Desk) (report : Report),
        (scaffold cwd path mount).outcome d = (.ok report, d') →
        (userMockPath cwd path ∈ report.skipped ↔ d.tree.existsAt cwd (userMockPath cwd path)) ∧
          (userMockPath cwd path ∈ report.written ↔ ¬ d.tree.existsAt cwd (userMockPath cwd path)) := by
  refine ⟨fun events d l content hl hs h => run_file hcwd hl events hs h, fun path mount d d' report h => ?_⟩
  exact (ensures_scaffold_report hcwd path mount d.tree).of_ok rfl h

/-- A module with a mock that has been edited, and a second module whose name looks like that of a mock. -/
def editedDesk : Desk where
  tree := ⟨[(["app"], .directory), (["app", "x.ts"], .file (Text.encode "export const a = 1")),
    (["app", "x.mock.ts"], .file (Text.encode "// mine"))]⟩
  log := []

def editingEvents : List Event :=
  [.scaffold "x.ts" "preload", .scaffold "x.mock.ts" "preload", .write "old/x.mock.ts" [], .delete "old",
    .bundle "x.ts" "out.js" "../app/x.ts" "preload", .scaffold "missing.ts" "preload"]

theorem userMock_never_overwritten_edited :
    (∀ x ∈ ["app"], IsName x) ∧ IsUserMock ["app", "x.mock.ts"] ∧
      (∀ e ∈ editingEvents, e.Spares ["app"] ["app", "x.mock.ts"]) ∧
      (editingEvents.foldl (Event.run ["app"]) editedDesk).tree.item? ["app", "x.mock.ts"] =
        some (.file (Text.encode "// mine")) ∧
      ∃ report d', (scaffold ["app"] "x.ts" "preload").outcome editedDesk = (.ok report, d') ∧
        "/app/x.mock.ts" ∈ report.skipped ∧ "/app/x.mock.ts" ∉ report.written := by
  have hcwd : ∀ x ∈ ["app"], IsName x := by decide
  have hl : IsUserMock ["app", "x.mock.ts"] := ⟨["app"], "x", rfl⟩
  have hs : ∀ e ∈ editingEvents, e.Spares ["app"] ["app", "x.mock.ts"] := by decide
  have hpath : userMockPath ["app"] "x.ts" = "/app/x.mock.ts" := by decide
  have hexists : editedDesk.tree.existsAt ["app"] "/app/x.mock.ts" := by decide
  obtain ⟨hkept, hreport⟩ := userMock_never_overwritten ["app"] hcwd
  have hok : ((scaffold ["app"] "x.ts" "preload").outcome editedDesk).1.isOk := by decide +kernel
  have hfile : editedDesk.tree.item? ["app", "x.mock.ts"] = some (.file (Text.encode "// mine")) := rfl
  have hrun := hkept editingEvents editedDesk ["app", "x.mock.ts"] (Text.encode "// mine") hl hs hfile
  refine ⟨hcwd, hl, hs, hrun, ?_⟩
  rcases ho : (scaffold ["app"] "x.ts" "preload").outcome editedDesk with ⟨r, d'⟩
  rw [ho] at hok
  cases r with
  | error fault => cases hok
  | ok report =>
    have h := hreport "x.ts" "preload" editedDesk d' report ho
    rw [hpath, hexists] at h
    exact ⟨report, d', rfl, h.1.2 rfl, fun hw => h.2.1 hw rfl⟩

end ModuleMock
