import InfinityScript.File.Session
import InfinityScript.Proofs.Codepage

/-!
# Files that are written

A text file is emptied before it is written. A text of the codepage is written all the
same as a whole, or not at all: once the path lets the file be emptied it lets it be
written (`Session.writesWhole`).
-/

namespace InfinityScript

namespace Run

variable {ε σ : Type} {state after : σ}

theorem bind_ok {x : ExceptT ε (StateM σ) α} (h : x.run.run state = (.ok a, after))
    (f : α → ExceptT ε (StateM σ) β) : (x >>= f).run.run state = (f a).run.run after := by
  have hbind : (x >>= f).run.run state =
      (ExceptT.bindCont f (x.run.run state).1).run (x.run.run state).2 := rfl
  rw [hbind, h]
  rfl

theorem bind_error {x : ExceptT ε (StateM σ) α} (h : x.run.run state = (.error reason, after))
    (f : α → ExceptT ε (StateM σ) β) : (x >>= f).run.run state = (.error reason, after) := by
  have hbind : (x >>= f).run.run state =
      (ExceptT.bindCont f (x.run.run state).1).run (x.run.run state).2 := rfl
  rw [hbind, h]
  rfl

theorem get_bind (f : σ → ExceptT ε (StateM σ) α) :
    (get >>= f).run.run state = (f state).run.run state := rfl

theorem modify_bind (g : σ → σ) (f : PUnit → ExceptT ε (StateM σ) α) :
    (modify g >>= f).run.run state = (f ⟨⟩).run.run (g state) := rfl

end Run

namespace Tree

variable {tree middle : Tree} {path : Path}

/-- A file does not stand in its own way. -/
theorem blockedFrom?_insert (tree : Tree) (bytes : Bytes) {folder : Path} {names : List Text}
    (h : folder ++ names = path) :
    ({ tree with files := tree.files.insert path bytes } : Tree).blockedFrom? folder names =
      tree.blockedFrom? folder names := by
  induction names generalizing folder with
  | nil => rfl
  | cons name names ih =>
    have hne : path ≠ folder := by
      rintro rfl
      simp at h
    have hfile : ({ tree with files := tree.files.insert path bytes } : Tree).isFile folder =
        tree.isFile folder := by
      simp [isFile, Std.TreeMap.contains_insert, hne]
    have hrest : (folder ++ [name]) ++ names = path := by simpa using h
    rw [blockedFrom?, blockedFrom?, hfile, ih hrest]
    rfl

theorem obstacle?_insert (tree : Tree) (path : Path) (bytes : Bytes) :
    ({ tree with files := tree.files.insert path bytes } : Tree).obstacle? path =
      tree.obstacle? path := by
  rw [obstacle?, obstacle?, blockedFrom?_insert tree bytes (List.nil_append path)]

theorem write_ok (h : tree.write path bytes = .ok middle) :
    middle = { tree with files := tree.files.insert path bytes } ∧
      tree.obstacle? path = none ∧ tree.isFolder path = false := by
  unfold write at h
  split at h
  · cases h
  · next hobstacle =>
    split at h
    · cases h
    · next hfolder =>
      exact ⟨(Except.ok.inj h).symm, hobstacle, by simpa using hfolder⟩

/-- A file that could be written can be written again, and nothing else changes. -/
theorem exists_write (h : tree.write path first = .ok middle) (bytes : Bytes) :
    ∃ after, middle.write path bytes = .ok after ∧ after.read path = .ok bytes ∧
      after.folders = tree.folders ∧ ∀ other ≠ path, after.files[other]? = tree.files[other]? := by
  obtain ⟨rfl, hobstacle, hfolder⟩ := write_ok h
  have hobstacle' : ∀ written : Bytes, ({ tree with files := tree.files.insert path written } :
      Tree).obstacle? path = none := fun written =>
    (obstacle?_insert tree path written).trans hobstacle
  refine ⟨{ tree with files := (tree.files.insert path first).insert path bytes }, ?_, ?_, rfl,
    fun other hother => ?_⟩
  · rw [write, hobstacle']
    exact if_neg (Bool.not_eq_true _ ▸ hfolder)
  · have hread := obstacle?_insert { tree with files := tree.files.insert path first } path bytes
    rw [read, hread, hobstacle', Std.TreeMap.getElem?_insert_self]
  · simp [Std.TreeMap.getElem?_insert, Ne.symm hother]

end Tree

namespace Session

/-- The text is written to the path as a whole and nothing else changes, or the path is
refused and nothing changes at all. -/
def WritesWhole (path : Path) (text : Text) (session : Session Unit) : Prop :=
  ∀ space : Workspace,
    (∃ fault, session.run.run space = (.error (.path fault path), space)) ∨
      ∃ tree bytes, session.run.run space = (.ok (), { space with tree }) ∧
        tree.read path = .ok bytes ∧ Codepage.decode bytes = .ok text ∧
        tree.folders = space.tree.folders ∧
        ∀ other ≠ path, tree.files[other]? = space.tree.files[other]?

variable {space : Workspace}

theorem run_write_ok (h : space.tree.write path bytes = .ok tree) :
    (write path bytes).run.run space = (.ok (), { space with tree }) := by
  rw [write, Run.get_bind, h]
  rfl

theorem run_write_error (h : space.tree.write path bytes = .error fault) :
    (write path bytes).run.run space = (.error (.path fault path), space) := by
  rw [write, Run.get_bind, h]
  rfl

/-- Emptying the file before it is written loses nothing. -/
theorem writesWhole (h : text.IsCoded) (path : Path) :
    WritesWhole path text (writeText path text) := by
  intro space
  obtain ⟨bytes, hencode, hdecode⟩ := h.encode
  rw [writeText, hencode]
  cases hfirst : space.tree.write path [] with
  | error fault => exact .inl ⟨fault, Run.bind_error (run_write_error hfirst) _⟩
  | ok middle =>
    obtain ⟨after, hafter, hread, hfolders, hothers⟩ := Tree.exists_write hfirst bytes
    refine .inr ⟨after, bytes, ?_, hread, hdecode, hfolders, hothers⟩
    rw [Run.bind_ok (run_write_ok hfirst)]
    exact run_write_ok hafter

end Session

end InfinityScript
