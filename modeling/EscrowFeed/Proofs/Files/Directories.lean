/-
What making directories does to a file tree: it grows by directories.

Making a directory and those above it is a search for what is missing, with
several attempts and several ways to fail. None of that is of any matter to what
is in the tree already. Whatever the outcome, what was there is still there, and
what is new is a directory. So this is shown of the single attempt and is kept by
every way to put computations together, however the search goes.
-/
import EscrowFeed.Files.Tree
import EscrowFeed.Proofs.Files.Tree

set_option autoImplicit false

namespace EscrowFeed

open FileAccess

namespace FileTree

/-- What was there is there, and what is new is a directory. -/
def Grows (before after : FileTree) : Prop :=
  ∀ place, after.node? place = before.node? place
    ∨ before.node? place = none ∧ after.node? place = some .directory

theorem grows_refl (tree : FileTree) : tree.Grows tree := fun _ => .inl rfl

/-- Growth upon growth is growth. -/
theorem Grows.trans {a b c : FileTree} (hab : a.Grows b) (hbc : b.Grows c) : a.Grows c := by
  intro place
  rcases hab place with hab | ⟨hnone, hnew⟩
  · rw [← hab]
    exact hbc place
  · -- A directory that is there already cannot be new again.
    rcases hbc place with hbc | ⟨hnone', -⟩
    · exact .inr ⟨hnone, hbc.trans hnew⟩
    · rw [hnew] at hnone'
      cases hnone'

/-- A single attempt at a directory makes that directory or changes nothing. -/
theorem grows_createDirectory (path : String) (tree : FileTree) :
    tree.Grows (createDirectory path tree).2 := by
  have hput : ∀ directory name, tree.node? (directory ++ [name]) = none →
      tree.Grows (tree.put (directory ++ [name]) .directory) := by
    intro directory name hnone place
    rw [node?_put (List.append_ne_nil_of_right_ne_nil directory (List.cons_ne_nil name []))]
    split
    · next heq => exact .inr ⟨heq ▸ hnone, rfl⟩
    · exact .inl rfl
  rw [createDirectory]
  split
  · exact tree.grows_refl
  · exact tree.grows_refl
  -- Of the places a path may lead to, only a name that is free is changed.
  all_goals
    dsimp only
    split
    · exact tree.grows_refl
    · split
      · exact tree.grows_refl
      · next hnone => exact hput _ _ (Option.not_isSome_iff_eq_none.mp hnone)

end FileTree

/-! ## Computations -/

/-- Whatever comes of it, a computation adds nothing but directories. -/
def AddsDirectories {α : Type} (x : StateM FileTree α) : Prop :=
  ∀ tree : FileTree, tree.Grows (x.run tree).2

section

variable {α β : Type}

/-- A computation that touches nothing adds nothing. -/
theorem addsDirectories_pure (a : α) : AddsDirectories (pure a) := FileTree.grows_refl

/-- What two computations add is what the first adds and then what the second
does, on whatever result the first has. -/
theorem AddsDirectories.bind {x : StateM FileTree α} {f : α → StateM FileTree β}
    (hx : AddsDirectories x) (hf : ∀ a, AddsDirectories (f a)) : AddsDirectories (x >>= f) :=
  fun tree => (hx tree).trans (hf (x.run tree).1 (x.run tree).2)

theorem addsDirectories_read (path : String) :
    AddsDirectories (read path : StateM FileTree (Except FileError Bytes)) := FileTree.grows_refl

/-- One attempt at a directory adds that directory at most. -/
theorem addsDirectories_createDirectory (path : String) :
    AddsDirectories (FileAccess.createDirectory path : StateM FileTree (Except FileError Unit)) :=
  FileTree.grows_createDirectory path

/-- Looking whether there is a directory is reading. -/
theorem addsDirectories_isDirectory (path : String) :
    AddsDirectories (isDirectory path : StateM FileTree Bool) := by
  refine .bind (addsDirectories_read path) fun result => ?_
  split
  · exact addsDirectories_pure _
  · exact addsDirectories_pure _

/-- Forgiving an attempt that failed because the directory is there takes
another look and no more. -/
theorem addsDirectories_settle (path : String) (result : Except FileError Unit) :
    AddsDirectories (settle path result : StateM FileTree (Except FileError Unit)) := by
  cases result with
  | ok => exact addsDirectories_pure _
  | error error =>
    rw [settle]
    refine .bind (addsDirectories_isDirectory path) fun there => ?_
    split
    · exact addsDirectories_pure _
    · exact addsDirectories_pure _

/-- The search outward for a directory that can be made attempts one after the
other. -/
theorem addsDirectories_createInnermost (paths : List String) :
    AddsDirectories (createInnermost paths : StateM FileTree (Except FileError Unit)) := by
  -- The induction is on the paths outward, and each attempt adds a directory at most.
  induction paths with
  | nil => exact addsDirectories_pure _
  | cons path above ih =>
    rw [createInnermost]
    split
    · exact addsDirectories_pure _
    · refine .bind (addsDirectories_createDirectory path) fun result => ?_
      split
      · refine .bind ih fun outcome => ?_
        split
        · exact addsDirectories_pure _
        · exact .bind (addsDirectories_createDirectory path) fun _ => addsDirectories_settle path _
      · exact addsDirectories_settle path _

/-- **Nothing but directories is made** on the way to a directory. -/
theorem addsDirectories_createDirectories (path : String) :
    AddsDirectories (createDirectories path : StateM FileTree (Except FileError Unit)) :=
  addsDirectories_createInnermost _

end

end EscrowFeed
