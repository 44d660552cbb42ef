import ModuleMock.Proofs.Scaffold.Jobs
import ModuleMock.Proofs.Scaffold.Places

/-!
# What scaffolding comes to

`Scaffolded` lists what can become of scaffolding a module, told from what stands at the module and at the places of its
generated files; by `scaffolded_outcome` nothing else happens. A report comes with a tree in which two of the files are new
and the third is as it was, if it was there (`Scaffolded.of_ok`); elsewhere nothing changes (`Scaffolded.elsewhere`).
-/

namespace ModuleMock

/-! ## Writing at the places of generated files -/

namespace Job

section

variable (cwd : Location) {t : FileTree} {p : Places} {v : Location} (hr : p.Ready t) (hv : v ∈ p.toList) (text : String)
include hr hv

/-- The directory of a place whose directory exists needs no preparing. -/
theorem leads_prepareDirectory : Leads (prepareDirectory cwd (.ofLocation v)) t (.ok ()) t := by
  have hparent : (Path.ofLocation v).parent = .ofLocation v.dropLast := rfl
  refine .get_bind fun log => ?_
  rw [hparent, FileTree.makeDirectories_of_isDirectoryAt
    (FileTree.isDirectoryAt_of_stands (hr.names v hv) (hr.stands v hv) (hr.ne_nil hv))]
  exact .bind (leads_set _ t) (leads_pure () t)

/-- A directory at the place of a file is a fault. -/
theorem leads_writeText_error (hd : t.isDirectory v) :
    Leads (writeText cwd (.ofLocation v) text) t (.error (.path .isDirectory (Path.ofLocation v).toString)) t := by
  refine .bind (leads_prepareDirectory cwd hr hv) (.get_bind fun log => ?_)
  rw [FileTree.write_ofLocation (hr.names v hv) (hr.stands v hv) (hr.ne_nil hv), if_pos hd]
  exact .bind_error (leads_throw _ t) _

/-- Where no directory stands the text is written. -/
theorem leads_writeText_ok (hd : ¬ t.isDirectory v) :
    Leads (writeText cwd (.ofLocation v) text) t (.ok ()) (t.put v (.file (Text.encode text))) := by
  refine .bind (leads_prepareDirectory cwd hr hv) (.get_bind fun log => ?_)
  rw [FileTree.write_ofLocation (hr.names v hv) (hr.stands v hv) (hr.ne_nil hv), if_neg hd]
  exact .bind (leads_set _ t) (leads_note _ _ _ _)

end

end Job

/-! ## Outcomes of scaffolding -/

/-- The mocks for a module at a location with the given text. -/
def mocksAt (w : Workspace) (l : Location) (mount text : String) : Mocks :=
  Mocks.ofSurface (Modules.surface w [] (Path.ofLocation l).toString text) mount (preloadId (.ofLocation l))

/-- The report about the module at a location; `userMock` tells whether its mock for editing was written. -/
def reportAt (w : Workspace) (l : Location) (text : String) (userMock : Bool) : Report :=
  let path (l : Location) : String := (Path.ofLocation l).toString
  let places := Places.beside l
  { preloadPath := path l
    written := [path places.autoMock, path places.declaration] ++ if userMock then [path places.userMock] else []
    skipped := if userMock then [] else [path places.userMock]
    errors := (Modules.surface w [] (path l) text).errors }

/-- The mock for editing is one of the files in a report, and no other. -/
theorem userMock_mem_reportAt {l : Location} (hl : ∀ x ∈ l, IsName x) (w : Workspace) (text : String) (userMock : Bool) :
    ((Path.ofLocation (Places.beside l).userMock).toString ∈ (reportAt w l text userMock).written ↔ userMock) ∧
      ((Path.ofLocation (Places.beside l).userMock).toString ∈ (reportAt w l text userMock).skipped ↔ ¬ userMock) := by
  have hne : ∀ v ∈ (Places.beside l).toList, (Places.beside l).userMock ≠ v →
      (Path.ofLocation (Places.beside l).userMock).toString ≠ (Path.ofLocation v).toString := fun v hv hne h =>
    hne (toString_ofLocation_inj (Places.names_beside hl (Places.userMock_mem _)) (Places.names_beside hl hv) h)
  obtain ⟨-, hua, hud⟩ := Places.ne_of_nodup (Places.nodup_beside l)
  have hauto := hne _ (Places.autoMock_mem _) hua
  have hdecl := hne _ (Places.declaration_mem _) hud
  cases userMock with
  | true => simp [reportAt]
  | false => simp [reportAt, hauto, hdecl]

/-- The tree with the two files that are written anew each time. -/
def FileTree.refresh (t : FileTree) (places : Places) (mocks : Mocks) : FileTree :=
  (t.put places.autoMock (.file (Text.encode mocks.autoMock))).put places.declaration
    (.file (Text.encode mocks.declaration))

/-- What can become of scaffolding the module at a location. -/
inductive Scaffolded (w : Workspace) (l : Location) (mount : String) : Except FileFault Report → FileTree → Prop where
  | unread {fault : FileFault} (hread : w.tree.readText w.cwd (Path.ofLocation l).toString = .error fault) :
    Scaffolded w l mount (.error fault) w.tree
  | noAutoMock {text : String} (hread : w.tree.readText w.cwd (Path.ofLocation l).toString = .ok text)
      (hauto : w.tree.isDirectory (Places.beside l).autoMock) :
    Scaffolded w l mount (.error (.path .isDirectory (Path.ofLocation (Places.beside l).autoMock).toString)) w.tree
  | noDeclaration {text : String} (hread : w.tree.readText w.cwd (Path.ofLocation l).toString = .ok text)
      (hauto : ¬ w.tree.isDirectory (Places.beside l).autoMock) (hdecl : w.tree.isDirectory (Places.beside l).declaration) :
    Scaffolded w l mount (.error (.path .isDirectory (Path.ofLocation (Places.beside l).declaration).toString))
      (w.tree.put (Places.beside l).autoMock (.file (Text.encode (mocksAt w l mount text).autoMock)))
  | refreshed {text : String} (hread : w.tree.readText w.cwd (Path.ofLocation l).toString = .ok text)
      (hauto : ¬ w.tree.isDirectory (Places.beside l).autoMock)
      (hdecl : ¬ w.tree.isDirectory (Places.beside l).declaration)
      (huser : (w.tree.item? (Places.beside l).userMock).isSome) :
    Scaffolded w l mount (.ok (reportAt w l text false)) (w.tree.refresh (Places.beside l) (mocksAt w l mount text))
  | completed {text : String} (hread : w.tree.readText w.cwd (Path.ofLocation l).toString = .ok text)
      (hauto : ¬ w.tree.isDirectory (Places.beside l).autoMock)
      (hdecl : ¬ w.tree.isDirectory (Places.beside l).declaration)
      (huser : w.tree.item? (Places.beside l).userMock = none) :
    Scaffolded w l mount (.ok (reportAt w l text true))
      ((w.tree.refresh (Places.beside l) (mocksAt w l mount text)).put (Places.beside l).userMock
        (.file (Text.encode (mocksAt w l mount text).userMock)))

section

variable {cwd l : Location} {t : FileTree} {places : Places}

/-- A refresh leaves everything but its two files alone. -/
theorem FileTree.item?_refresh (ha : l ≠ places.autoMock) (hd : l ≠ places.declaration) (t : FileTree) (mocks : Mocks) :
    (t.refresh places mocks).item? l = t.item? l := by
  rw [refresh, item?_put_of_ne _ _ hd, item?_put_of_ne _ _ ha]

/-- After a refresh the automatic mock stands at its place. -/
theorem FileTree.item?_refresh_autoMock (hr : places.Ready t) (mocks : Mocks) :
    (t.refresh places mocks).item? places.autoMock = some (.file (Text.encode mocks.autoMock)) := by
  rw [refresh, item?_put_of_ne _ _ hr.ne.1.symm, item?_put_self _ _ (hr.ne_nil places.autoMock_mem)]

/-- After a refresh the declarations stand at their place. -/
theorem FileTree.item?_refresh_declaration (hr : places.Ready t) (mocks : Mocks) :
    (t.refresh places mocks).item? places.declaration = some (.file (Text.encode mocks.declaration)) :=
  item?_put_self _ _ (hr.ne_nil places.declaration_mem)

/-- Places stay ready under a refresh. -/
theorem Places.Ready.refresh (hr : places.Ready t) (mocks : Mocks) : places.Ready (t.refresh places mocks) :=
  (hr.put places.autoMock_mem _).put places.declaration_mem _

/-- Whether the user's mock exists is the same before and after a refresh. -/
theorem FileTree.existsAt_refresh (cwd : Location) (hr : places.Ready t) (mocks : Mocks) :
    (t.refresh places mocks).existsAt cwd (Path.ofLocation places.userMock).toString =
      (t.item? places.userMock).isSome := by
  have hr' := hr.refresh mocks
  obtain ⟨-, hua, hud⟩ := hr.ne
  rw [existsAt_ofLocation (hr'.names _ places.userMock_mem) (hr'.stands _ places.userMock_mem), item?_refresh hua hud]

/-- Writing the second file, where it can be written. -/
theorem leads_writeText_declaration (cwd : Location) (hr : places.Ready t)
    (hdecl : ¬ t.isDirectory places.declaration) (mocks : Mocks) :
    Job.Leads (Job.writeText cwd (.ofLocation places.declaration) mocks.declaration)
      (t.put places.autoMock (.file (Text.encode mocks.autoMock))) (.ok ()) (t.refresh places mocks) := by
  refine Job.leads_writeText_ok cwd (hr.put places.autoMock_mem _) places.declaration_mem _ ?_
  rwa [FileTree.isDirectory, FileTree.item?_put_of_ne _ _ hr.ne.1]

/-- Every run of a scaffold ends in one of the described ways. -/
theorem scaffolded_leads (hcwd : ∀ x ∈ cwd, IsName x) (path mount : String) (t : FileTree) :
    ∃ r t', Scaffolded ⟨t, cwd⟩ (Path.resolve cwd (.ofString path)) mount r t' ∧
      Job.Leads (scaffold cwd path mount) t r t' := by
  have hnames := isName_resolve hcwd path
  unfold scaffold
  generalize Path.resolve cwd (.ofString path) = l at hnames ⊢
  simp only [Places.files_beside hnames]
  cases hread : t.readText cwd (Path.ofLocation l).toString with
  | error fault => exact ⟨_, _, .unread hread, .bind_error (Job.leads_analyzeEntry_error hread) _⟩
  | ok text =>
    have hr := Places.ready_beside hnames hread
    have hentry := Job.leads_analyzeEntry_ok hread
    by_cases hauto : t.isDirectory (Places.beside l).autoMock
    · have hfirst := Job.leads_writeText_error cwd hr (Places.autoMock_mem _)
        (mocksAt ⟨t, cwd⟩ l mount text).autoMock hauto
      exact ⟨_, _, .noAutoMock hread hauto, .bind hentry (.bind_error hfirst _)⟩
    have hfirst := Job.leads_writeText_ok cwd hr (Places.autoMock_mem _)
      (mocksAt ⟨t, cwd⟩ l mount text).autoMock hauto
    by_cases hdecl : t.isDirectory (Places.beside l).declaration
    · refine ⟨_, _, .noDeclaration hread hauto hdecl, .bind hentry (.bind hfirst (.bind_error ?_ _))⟩
      refine Job.leads_writeText_error cwd (hr.put (Places.autoMock_mem _) _) (Places.declaration_mem _) _ ?_
      rwa [FileTree.isDirectory, FileTree.item?_put_of_ne _ _ hr.ne.1]
    have hsecond := leads_writeText_declaration cwd hr hdecl (mocksAt ⟨t, cwd⟩ l mount text)
    have hexists := FileTree.existsAt_refresh cwd hr (mocksAt ⟨t, cwd⟩ l mount text)
    cases huser : t.item? (Places.beside l).userMock with
    | some i =>
      refine ⟨_, _, .refreshed hread hauto hdecl (by simp [huser]), .bind hentry (.bind hfirst (.bind hsecond ?_))⟩
      refine .get_bind fun log => ?_
      rw [if_pos (hexists.trans (by rw [huser]; rfl))]
      exact .bind (Job.leads_note _ _ _ _) (Job.leads_pure _ _)
    | none =>
      refine ⟨_, _, .completed hread hauto hdecl huser, .bind hentry (.bind hfirst (.bind hsecond ?_))⟩
      refine .get_bind fun log => ?_
      rw [huser, Option.isSome_none] at hexists
      rw [if_neg (by rw [hexists]; simp)]
      refine .bind (Job.leads_writeText_ok cwd (hr.refresh _) (Places.userMock_mem _) _ ?_) (Job.leads_pure _ _)
      rw [FileTree.isDirectory, FileTree.item?_refresh hr.ne.2.1 hr.ne.2.2, huser]
      decide

/-- Scaffolding ends in one of these ways. -/
theorem scaffolded_outcome (hcwd : ∀ x ∈ cwd, IsName x) (path mount : String) (d : Desk) :
    Scaffolded ⟨d.tree, cwd⟩ (Path.resolve cwd (.ofString path)) mount ((scaffold cwd path mount).outcome d).1
      ((scaffold cwd path mount).outcome d).2.tree := by
  obtain ⟨r, t', hs, hleads⟩ := scaffolded_leads hcwd path mount d.tree
  obtain ⟨log, ho⟩ := hleads.of_run d.log
  rw [ho]
  exact hs

/-- The second tree is the first with the generated files: two of them new, where no directories were, and the third where
nothing was. -/
structure Refreshes (places : Places) (mocks : Mocks) (t t' : FileTree) : Prop where
  free : ¬ t.isDirectory places.autoMock ∧ ¬ t.isDirectory places.declaration
  ready : places.Ready t'
  autoMock : t'.item? places.autoMock = some (.file (Text.encode mocks.autoMock))
  declaration : t'.item? places.declaration = some (.file (Text.encode mocks.declaration))
  userMock : t'.item? places.userMock = (t.item? places.userMock).or (some (.file (Text.encode mocks.userMock)))
  elsewhere : ∀ k ∉ places.toList, t'.item? k = t.item? k

/-- Whichever way a scaffold ends, nothing beside its three places changes. -/
theorem Scaffolded.elsewhere {w : Workspace} {mount : String} {r : Except FileFault Report} {t' : FileTree}
    (h : Scaffolded w l mount r t') {k : Location} (hk : k ∉ (Places.beside l).toList) : t'.item? k = w.tree.item? k := by
  have hne : ∀ v ∈ (Places.beside l).toList, k ≠ v := by
    rintro v hv rfl
    exact hk hv
  have hauto := hne _ (Places.autoMock_mem _)
  have hdecl := hne _ (Places.declaration_mem _)
  have huser := hne _ (Places.userMock_mem _)
  cases h with
  | unread => rfl
  | noAutoMock => rfl
  | noDeclaration => rw [FileTree.item?_put_of_ne _ _ hauto]
  | refreshed => rw [FileTree.item?_refresh hauto hdecl]
  | completed => rw [FileTree.item?_put_of_ne _ _ huser, FileTree.item?_refresh hauto hdecl]

/-- What a report of scaffolding stands for. -/
theorem Scaffolded.of_ok {w : Workspace} {mount : String} {report : Report} {t' : FileTree} (hl : ∀ x ∈ l, IsName x)
    (h : Scaffolded w l mount (.ok report) t') :
    ∃ text, w.tree.readText w.cwd (Path.ofLocation l).toString = .ok text ∧
      report = reportAt w l text (w.tree.item? (Places.beside l).userMock).isNone ∧
      Refreshes (Places.beside l) (mocksAt w l mount text) w.tree t' := by
  have helsewhere := fun k => h.elsewhere (k := k)
  cases h with
  | @refreshed text hread hauto hdecl huser =>
    have hr := Places.ready_beside hl hread
    obtain ⟨i, hi⟩ := Option.isSome_iff_exists.1 huser
    refine ⟨text, hread, by rw [hi]; rfl, ⟨hauto, hdecl⟩, hr.refresh _, ?_, ?_, ?_, helsewhere⟩
    · exact FileTree.item?_refresh_autoMock hr _
    · exact FileTree.item?_refresh_declaration hr _
    · rw [FileTree.item?_refresh hr.ne.2.1 hr.ne.2.2, hi, Option.some_or]
  | @completed text hread hauto hdecl huser =>
    have hr := Places.ready_beside hl hread
    refine ⟨text, hread, by rw [huser]; rfl, ⟨hauto, hdecl⟩, (hr.refresh _).put (Places.userMock_mem _) _, ?_, ?_, ?_,
      helsewhere⟩
    · rw [FileTree.item?_put_of_ne _ _ hr.ne.2.1.symm]
      exact FileTree.item?_refresh_autoMock hr _
    · rw [FileTree.item?_put_of_ne _ _ hr.ne.2.2.symm]
      exact FileTree.item?_refresh_declaration hr _
    · rw [FileTree.item?_put_self _ _ (hr.ne_nil (Places.userMock_mem _)), huser, Option.none_or]

end

end ModuleMock
