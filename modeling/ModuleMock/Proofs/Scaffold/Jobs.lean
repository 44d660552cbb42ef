import ModuleMock.Scaffold
import ModuleMock.Proofs.FileTree.Changing

/-!
# Jobs

The outcome of a job is its result, or why it failed, and the desk that it leaves.

- `Job.Ensures` states what a job makes of trees with a property, in both cases.
- `Job.Leads` tells the outcome for one tree, whatever the log.

Both go along with jobs one after the other (`Ensures.bind`, `Leads.bind`).
-/

namespace ModuleMock

namespace Job

variable {α β : Type} {P : FileTree → Prop} {Q : β → FileTree → Prop} {E : FileTree → Prop}

/-- The result of a job, or why it failed, and the desk it leaves. -/
def outcome (x : Job α) (d : Desk) : Except FileFault α × Desk := x.run.run d

/-- Jobs in sequence: the second runs where the first has left the desk, unless that fails. -/
theorem outcome_bind (x : Job α) (f : α → Job β) (d : Desk) :
    (x >>= f).outcome d =
      match x.outcome d with
      | (.ok a, d') => (f a).outcome d'
      | (.error fault, d') => (.error fault, d') := by
  change (match x d with | (r, d') => ExceptT.bindCont f r d') = _
  unfold outcome
  change _ = (match x d with | (.ok a, d') => (f a).run.run d' | (.error fault, d') => (.error fault, d'))
  rcases x d with ⟨r, d'⟩
  cases r with
  | ok a => rfl
  | error fault => rfl

/-- From trees with a property, a job comes to a result with a property, or fails with a tree that has a property. -/
structure Ensures (P : FileTree → Prop) (x : Job α) (Q : α → FileTree → Prop) (E : FileTree → Prop) : Prop where
  of_run : ∀ d, P d.tree →
    match x.outcome d with
    | (.ok a, d') => Q a d'.tree
    | (.error _, d') => E d'.tree

/-- Contracts compose along a sequence. -/
theorem Ensures.bind {x : Job α} {f : α → Job β} {M : α → FileTree → Prop} (hx : Ensures P x M E)
    (hf : ∀ a, Ensures (M a) (f a) Q E) : Ensures P (x >>= f) Q E := by
  refine ⟨fun d hd => ?_⟩
  have h := hx.of_run d hd
  rw [outcome_bind]
  generalize x.outcome d = o at h ⊢
  rcases o with ⟨r, d'⟩
  cases r with
  | ok a => exact (hf a).of_run d' h
  | error fault => exact h

/-- A contract holds with more assumed and less ensured. -/
theorem Ensures.weaken {x : Job β} {P' : FileTree → Prop} {Q' : β → FileTree → Prop} {E' : FileTree → Prop}
    (hx : Ensures P x Q E) (hP : ∀ t, P' t → P t) (hQ : ∀ a t, Q a t → Q' a t) (hE : ∀ t, E t → E' t) :
    Ensures P' x Q' E' := by
  refine ⟨fun d hd => ?_⟩
  have h := hx.of_run d (hP _ hd)
  split at h
  · exact hQ _ _ h
  · exact hE _ h

/-- What a contract says of a job that succeeds. -/
theorem Ensures.of_ok {x : Job β} {d d' : Desk} {b : β} (hx : Ensures P x Q E) (hd : P d.tree)
    (h : x.outcome d = (.ok b, d')) : Q b d'.tree := by
  have hr := hx.of_run d hd
  rwa [h] at hr

/-- What a job keeps whether it comes to a result or fails. -/
theorem Ensures.after {x : Job β} (hx : Ensures P x (fun _ => P) P) {d : Desk} (hd : P d.tree) :
    P (x.outcome d).2.tree := by
  have h := hx.of_run d hd
  split at h <;> simp_all

/-- A contract that keeps one condition, whether or not the job fails. -/
theorem Ensures.of_after {x : Job β} (h : ∀ d, P d.tree → P (x.outcome d).2.tree) : Ensures P x (fun _ => P) P := by
  refine ⟨fun d hd => ?_⟩
  have h := h d hd
  split <;> simp_all

/-- A contract on successful runs only. -/
theorem Ensures.of_results {x : Job β} (h : ∀ d b d', P d.tree → x.outcome d = (.ok b, d') → Q b d'.tree) :
    Ensures P x Q fun _ => True := by
  refine ⟨fun d hd => ?_⟩
  split
  · rename_i ho
    exact h d _ _ hd ho
  · trivial

theorem ensures_get : Ensures P (get : Job Desk) (fun d t => d.tree = t ∧ P t) E := ⟨fun _ hd => ⟨rfl, hd⟩⟩

/-- A change of the desk beside its tree keeps every condition. -/
theorem ensures_modify {g : Desk → Desk} (hg : ∀ d, (g d).tree = d.tree) :
    Ensures P (modify g : Job PUnit) (fun _ => P) E := by
  refine ⟨fun d hd => ?_⟩
  change P (g d).tree
  rwa [hg]

theorem ensures_note (level : Level) (reporter : Reporter) (message : String) :
    Ensures P (note level reporter message) (fun _ => P) E := ⟨fun _ hd => hd⟩

/-- A look at the tree changes nothing and gives what is there. -/
theorem ensures_look (f : FileTree → Except FileFault α) :
    Ensures P (look f) (fun a t => P t ∧ f t = .ok a) P := by
  refine .bind ensures_get fun d => ⟨?_⟩
  intro d' ⟨ht, hd⟩
  cases hf : f d.tree with
  | ok a =>
    rw [ht] at hf
    exact ⟨hd, hf⟩
  | error fault => exact hd

theorem ensures_notes (level : Level) (reporter : Reporter) (messages : List String) :
    Ensures P (forIn messages PUnit.unit fun m _ => do note level reporter m; return .yield PUnit.unit)
      (fun _ => P) E := by
  induction messages with
  | nil => exact ⟨fun _ hd => hd⟩
  | cons m ms ih =>
    rw [List.forIn_cons, bind_assoc]
    exact .bind (ensures_note level reporter m) fun _ => by simpa only [pure_bind] using ih

/-- Analysing the entry module changes no file. -/
theorem ensures_analyzeEntry (cwd : Location) (path : String) :
    Ensures P (analyzeEntry cwd path) (fun _ => P) P := by
  refine .bind ensures_get fun d => .bind (M := fun _ => P) ?_ fun text => ?_
  · exact (ensures_look _).weaken (fun t ht => ht.2) (fun a t ht => ht.1) fun t ht => ht
  · exact .bind (ensures_modify fun _ => rfl) fun _ => .bind (ensures_notes _ _ _) fun _ => ⟨fun _ hd => hd⟩

/-- Preparing a directory keeps what every new directory keeps. -/
theorem ensures_prepareDirectory {cwd : Location} {p : Path}
    (hmake : ∀ t l, P t → t.item? l = none → P (t.put l .directory)) :
    Ensures P (prepareDirectory cwd p) (fun _ => P) P := by
  refine .bind ensures_get fun d => ⟨?_⟩
  intro d' ⟨ht, hd⟩
  have hmade := FileTree.makeDirectories_invariant cwd hmake (p.parts.length + 1) (ht ▸ hd : P d.tree) p.parent
  generalize FileTree.makeDirectories cwd (p.parts.length + 1) d.tree p.parent = made at hmade ⊢
  rcases made with ⟨tree, result⟩
  cases result with
  | ok _ => exact hmade
  | error fault => exact hmade

/-- Writing a file keeps what making directories keeps, and putting the file where it goes. -/
theorem ensures_writeText_invariant {cwd : Location} {p : Path} (text : String)
    (hmake : ∀ t l, P t → t.item? l = none → P (t.put l .directory))
    (hwrite : ∀ t content, P t → t.item? (Path.resolve cwd (.ofString p.toString)) ≠ some .directory →
      P (t.put (Path.resolve cwd (.ofString p.toString)) (.file content))) :
    Ensures P (writeText cwd p text) (fun _ => P) P := by
  refine .bind (ensures_prepareDirectory hmake) fun _ => ?_
  refine .bind ensures_get fun d => ?_
  cases hw : d.tree.write cwd p.toString (Text.encode text) with
  | error fault => exact ⟨fun d' hd => hd.2⟩
  | ok tree =>
    refine .bind (M := fun _ => P) ⟨?_⟩ fun _ => ensures_note _ _ _
    intro d' ⟨ht, hd⟩
    obtain ⟨hfree, rfl⟩ := FileTree.write_eq_put hw
    exact hwrite d.tree _ (ht ▸ hd) hfree

/-! ## Exact outcomes -/

section

variable {cwd : Location} {t t' t'' : FileTree} {path text : String} {fault : FileFault}

/-- From the first tree a job comes to a result, or a fault, and the second tree, whatever the log. -/
structure Leads (x : Job α) (t : FileTree) (r : Except FileFault α) (t' : FileTree) : Prop where
  of_run : ∀ log, ∃ log', x.outcome ⟨t, log⟩ = (r, ⟨t', log'⟩)

/-- Runs compose along a sequence. -/
theorem Leads.bind {x : Job α} {f : α → Job β} {a : α} {r : Except FileFault β} (hx : Leads x t (.ok a) t')
    (hf : Leads (f a) t' r t'') : Leads (x >>= f) t r t'' := by
  refine ⟨fun log => ?_⟩
  obtain ⟨log', hx⟩ := hx.of_run log
  rw [outcome_bind, hx]
  exact hf.of_run log'

/-- A failing job ends the sequence. -/
theorem Leads.bind_error {x : Job α} (hx : Leads x t (.error fault) t') (f : α → Job β) :
    Leads (x >>= f) t (.error fault) t' := by
  refine ⟨fun log => ?_⟩
  obtain ⟨log', hx⟩ := hx.of_run log
  rw [outcome_bind, hx]
  exact ⟨log', rfl⟩

theorem Leads.get_bind {f : Desk → Job β} {r : Except FileFault β} (hf : ∀ log, Leads (f ⟨t, log⟩) t r t') :
    Leads ((get : Job Desk) >>= f) t r t' := ⟨fun log => (hf log).of_run log⟩

theorem leads_pure (a : α) (t : FileTree) : Leads (pure a) t (.ok a) t := ⟨fun log => ⟨log, rfl⟩⟩

theorem leads_throw (fault : FileFault) (t : FileTree) : Leads (throw fault : Job α) t (.error fault) t :=
  ⟨fun log => ⟨log, rfl⟩⟩

theorem leads_set (d : Desk) (t : FileTree) : Leads (set d : Job PUnit) t (.ok ()) d.tree := ⟨fun _ => ⟨d.log, rfl⟩⟩

theorem leads_note (level : Level) (reporter : Reporter) (message : String) (t : FileTree) :
    Leads (note level reporter message) t (.ok ()) t := ⟨fun _ => ⟨_, rfl⟩⟩

/-- A look that fails ends the job, and the tree stays as it is. -/
theorem leads_look_error {f : FileTree → Except FileFault α} (h : f t = .error fault) :
    Leads (look f) t (.error fault) t :=
  .get_bind fun log => by simpa only [h] using leads_throw fault t

theorem leads_look_ok {f : FileTree → Except FileFault α} {a : α} (h : f t = .ok a) : Leads (look f) t (.ok a) t :=
  .get_bind fun log => by simpa only [h] using leads_pure a t

theorem leads_notes (level : Level) (reporter : Reporter) (messages : List String) (t : FileTree) :
    Leads (forIn messages PUnit.unit fun m _ => do note level reporter m; return .yield PUnit.unit) t
      (.ok PUnit.unit) t := by
  induction messages with
  | nil => exact leads_pure _ t
  | cons m ms ih =>
    rw [List.forIn_cons, bind_assoc]
    exact .bind (leads_note level reporter m t) (by simpa only [pure_bind] using ih)

/-- An entry module that cannot be read fails the analysis. -/
theorem leads_analyzeEntry_error (h : t.readText cwd path = .error fault) :
    Leads (analyzeEntry cwd path) t (.error fault) t := .get_bind fun _ => .bind_error (leads_look_error h) _

/-- An entry module that can be read is analysed in the tree as it is. -/
theorem leads_analyzeEntry_ok (h : t.readText cwd path = .ok text) :
    Leads (analyzeEntry cwd path) t (.ok (Modules.surface ⟨t, cwd⟩ [] path text)) t := by
  refine .get_bind fun _ => .bind (leads_look_ok h) ?_
  exact .bind ⟨fun _ => ⟨_, rfl⟩⟩ (.bind (leads_notes _ _ _ t) (leads_pure _ t))

end

end Job

end ModuleMock
