/-
What the operations on a file tree leave behind.

A path is followed through directories only, so a file that is made, emptied or
added to stands in no way, and what is written to a path twice goes to one
place. That is all that is needed to say what becomes of a file that is made
anew and then given a content: the path leads to it, it holds the content
whatever it held before, and at every other place the tree is as it was.

A device is no file. It takes what is written to it, as far as it does, and the
tree stays as it is.
-/
import EscrowFeed.Files.Tree
import EscrowFeed.Success
import Mathlib.Data.List.Basic

set_option autoImplicit false

namespace EscrowFeed

/-- A device takes what is written to it and holds nothing. -/
def Node.IsDevice (node : Node) : Prop := node = .nullDevice ∨ node = .fullDevice

theorem Node.IsDevice.ne_file {node : Node} (h : node.IsDevice) (content : Bytes) :
    node ≠ .file content := by
  rintro rfl
  rcases h with h | h <;> cases h

theorem Node.IsDevice.ne_directory {node : Node} (h : node.IsDevice) : node ≠ .directory := by
  rintro rfl
  rcases h with h | h <;> cases h

namespace FileTree

open Success

variable {tree : FileTree} {path : String} {place : Place}

/-! ## Nodes -/

/-- The root is always a directory. -/
theorem node?_nil (tree : FileTree) : tree.node? [] = some .directory := if_pos rfl

theorem ne_nil_of_node?_ne (h : tree.node? place ≠ some .directory) : place ≠ [] := by
  rintro rfl
  exact h tree.node?_nil

/-- What is at a place after something has been put there or elsewhere. The root
is left out, since nothing can be put in its stead. -/
theorem node?_put (hplace : place ≠ []) (other : Place) (node : Node) (tree : FileTree) :
    (tree.put place node).node? other = if other = place then some node else tree.node? other := by
  by_cases heq : other = place
  · rw [if_pos heq, heq, node?, if_neg hplace, put, List.find?_cons_of_pos (by simp)]
    rfl
  · rw [if_neg heq, node?, node?]
    by_cases hroot : other = []
    · rw [if_pos hroot, if_pos hroot]
    · rw [if_neg hroot, if_neg hroot, put, List.find?_cons_of_neg (by simpa using Ne.symm heq),
        List.find?_filter]
      -- The old entry of the place was taken out, which no other place notices.
      congr 2
      funext entry
      by_cases hentry : entry.1 = other
      · simp [hentry, heq]
      · simp [hentry]

/-! ## Following paths -/

/-- Where one segment leads from a directory. -/
inductive Step (tree : FileTree) (place : Place) (segment : String) : Place → Prop where
  | stay : segment = "" ∨ segment = "." → Step tree place segment place
  | up : segment = ".." → Step tree place segment place.dropLast
  | down : segment.utf8ByteSize ≤ nameLimit → segment ≠ "" → segment ≠ "." → segment ≠ ".." →
      (tree.node? (place ++ [segment])).isSome → Step tree place segment (place ++ [segment])

/-- **A path is followed step by step**, each step from a directory. -/
theorem follow_cons_eq_ok_iff {start goal : Place} {segment : String} {rest : List String} :
    tree.follow start (segment :: rest) = .ok goal ↔
      tree.node? start = some .directory
        ∧ ∃ next, tree.Step start segment next ∧ tree.follow next rest = .ok goal := by
  rw [follow]
  constructor
  · intro h
    -- The tests of the program come in the order in which the steps exclude each other.
    split at h
    · cases h
    · next hstart =>
      refine ⟨not_not.mp hstart, ?_⟩
      split at h
      · next hstay => exact ⟨_, .stay hstay, h⟩
      · next hstay =>
        rw [not_or] at hstay
        split at h
        · next hup => exact ⟨_, .up hup, h⟩
        · next hup =>
          split at h
          · cases h
          · next hlength =>
            split at h
            · cases h
            · next hthere =>
              rw [Option.isNone_iff_eq_none, ← ne_eq, Option.ne_none_iff_isSome] at hthere
              exact ⟨_, .down (Nat.le_of_not_lt hlength) hstay.1 hstay.2 hup hthere, h⟩
  · rintro ⟨hstart, next, hstep, h⟩
    rw [if_neg (not_not.mpr hstart)]
    cases hstep with
    | stay hstay => rwa [if_pos hstay]
    | up hup =>
      subst hup
      exact h
    | down hlength hempty hdot hdots hthere =>
      rw [if_neg (not_or.mpr ⟨hempty, hdot⟩), if_neg hdots, if_neg (Nat.not_lt.mpr hlength),
        if_neg (by rwa [Option.isNone_iff_eq_none, ← ne_eq, Option.ne_none_iff_isSome])]
      exact h

/-- Following a path is following its front and then the rest. -/
theorem follow_append_eq_ok_iff {start goal : Place} {front rest : List String} :
    tree.follow start (front ++ rest) = .ok goal ↔
      ∃ middle, tree.follow start front = .ok middle ∧ tree.follow middle rest = .ok goal := by
  induction front generalizing start with
  | nil => simp [follow]
  | cons segment front ih =>
    rw [List.cons_append, follow_cons_eq_ok_iff]
    simp only [follow_cons_eq_ok_iff, ih]
    constructor
    · rintro ⟨hstart, next, hstep, middle, hfront, hrest⟩
      exact ⟨middle, ⟨hstart, next, hstep, hfront⟩, hrest⟩
    · rintro ⟨middle, ⟨hstart, next, hstep, hfront⟩, hrest⟩
      exact ⟨hstart, next, hstep, middle, hfront, hrest⟩

/-- **A file stands in no way.** Where no directory is, a file may be put, and
what could be reached before is reached as before. -/
theorem follow_put {start goal : Place} {segments : List String}
    (hplace : tree.node? place ≠ some .directory) (content : Bytes)
    (h : tree.follow start segments = .ok goal) :
    (tree.put place (.file content)).follow start segments = .ok goal := by
  have hroot := ne_nil_of_node?_ne hplace
  induction segments generalizing start with
  | nil => exact h
  | cons segment rest ih =>
    obtain ⟨hstart, next, hstep, hrest⟩ := follow_cons_eq_ok_iff.mp h
    -- The step begins in a directory, and that is at another place than the file.
    have hne : start ≠ place := fun heq => hplace (heq ▸ hstart)
    have hstart' : (tree.put place (.file content)).node? start = some .directory := by
      rw [node?_put hroot, if_neg hne, hstart]
    refine follow_cons_eq_ok_iff.mpr ⟨hstart', next, ?_, ih hrest⟩
    cases hstep with
    | stay hstay => exact .stay hstay
    | up hup => exact .up hup
    | down hlength hempty hdot hdots hthere =>
      refine .down hlength hempty hdot hdots ?_
      rw [node?_put hroot]
      split
      · rfl
      · exact hthere

/-! ## What can be written to -/

/-- A path ends with the name of an entry, and its other segments lead to the
directory that the entry is in. -/
theorem target_eq_entry_iff {directory : Place} {name : String} :
    tree.target path = .ok (.entry directory name) ↔
      checkName path = .ok () ∧ name ≠ "" ∧ name ≠ "." ∧ name ≠ ".."
        ∧ tree.node? directory = some .directory
        ∧ ∃ above, Path.segments path = above ++ [name]
          ∧ tree.follow (tree.start path) above = .ok directory := by
  rw [target]
  simp only [bind_eq_ok]
  constructor
  · rintro ⟨⟨⟩, hname, h⟩
    refine ⟨hname, ?_⟩
    split at h
    · cases h
    · next last above hparts =>
      simp only [bind_eq_ok] at h
      obtain ⟨reached, hfollow, h⟩ := h
      split at h
      · cases h
      · next hdirectory =>
        rw [ne_eq, not_not] at hdirectory
        split at h
        · cases h
        · next hdots =>
          rw [not_or] at hdots
          split at h
          · cases h
          · next hslash =>
            obtain ⟨rfl, rfl⟩ := Target.entry.inj (Except.ok.inj h)
            -- Nothing has been dropped at the end, since no slash is there.
            have hwhole : (Path.segments path).reverse = last :: above := by
              cases hreverse : (Path.segments path).reverse with
              | nil =>
                rw [hreverse] at hparts
                cases hparts
              | cons segment rest =>
                have hne : segment ≠ "" := fun heq => hslash (by rw [hreverse, heq]; rfl)
                rwa [hreverse, List.dropWhile_cons_of_neg (by simpa using hne)] at hparts
            have hempty : last ≠ "" := fun heq => hslash (by rw [hwhole, heq]; rfl)
            refine ⟨hempty, hdots.1, hdots.2, hdirectory, above.reverse, ?_, hfollow⟩
            rw [← List.reverse_reverse (Path.segments path), hwhole, List.reverse_cons]
  · rintro ⟨hname, hempty, hdot, hdots, hdirectory, above, hsegments, hfollow⟩
    refine ⟨(), hname, ?_⟩
    have hparts : (Path.segments path).reverse = name :: above.reverse := by
      rw [hsegments, List.reverse_append, List.reverse_singleton, List.singleton_append]
    rw [hparts, List.dropWhile_cons_of_neg (by simpa using hempty)]
    dsimp only
    rw [List.reverse_reverse, hfollow]
    simp [bind, Except.bind, hdirectory, hdot, hdots, hempty, pure, Except.pure]

/-- The place that is written to by a path. -/
def WritesTo (tree : FileTree) (path : String) (place : Place) : Prop :=
  ∃ directory name, tree.target path = .ok (.entry directory name)
    ∧ name.utf8ByteSize ≤ nameLimit ∧ place = directory ++ [name]

/-- A path is written to in one place. -/
theorem WritesTo.unique {other : Place} (h : tree.WritesTo path place)
    (hother : tree.WritesTo path other) : other = place := by
  obtain ⟨directory, name, htarget, -, rfl⟩ := h
  obtain ⟨directory', name', htarget', -, rfl⟩ := hother
  rw [htarget] at htarget'
  obtain ⟨rfl, rfl⟩ := Target.entry.inj (Except.ok.inj htarget')
  rfl

theorem WritesTo.ne_nil (h : tree.WritesTo path place) : place ≠ [] := by
  obtain ⟨directory, name, -, -, rfl⟩ := h
  exact List.append_ne_nil_of_right_ne_nil directory (List.cons_ne_nil name [])

/-- What is put at some place does not change where a path is written to. -/
theorem WritesTo.put {other : Place} (h : tree.WritesTo path place)
    (hother : tree.node? other ≠ some .directory) (content : Bytes) :
    (tree.put other (.file content)).WritesTo path place := by
  obtain ⟨directory, name, htarget, hlength, rfl⟩ := h
  obtain ⟨hname, hempty, hdot, hdots, hdirectory, above, hsegments, hfollow⟩ :=
    target_eq_entry_iff.mp htarget
  have hne : directory ≠ other := fun heq => hother (heq ▸ hdirectory)
  have hdirectory' : (tree.put other (.file content)).node? directory = some .directory := by
    rw [node?_put (ne_nil_of_node?_ne hother), if_neg hne, hdirectory]
  exact ⟨directory, name, target_eq_entry_iff.mpr ⟨hname, hempty, hdot, hdots, hdirectory', above,
    hsegments, follow_put hother content hfollow⟩, hlength, rfl⟩

/-- What can be written to is found there, if it is there. -/
theorem WritesTo.locate_eq (h : tree.WritesTo path place) (hthere : (tree.node? place).isSome) :
    tree.locate path = .ok place := by
  obtain ⟨directory, name, htarget, hlength, rfl⟩ := h
  obtain ⟨hname, hempty, hdot, hdots, hdirectory, above, hsegments, hfollow⟩ :=
    target_eq_entry_iff.mp htarget
  have hlast : tree.follow directory [name] = .ok (directory ++ [name]) :=
    follow_cons_eq_ok_iff.mpr ⟨hdirectory, _, .down hlength hempty hdot hdots hthere, rfl⟩
  rw [locate, hname, hsegments]
  exact follow_append_eq_ok_iff.mpr ⟨directory, hfollow, hlast⟩

/-! ## Writing -/

/-- What a write leaves of a tree, by what is at its place. -/
inductive Stores (tree : FileTree) (place : Place) (change : Bytes → Bytes) : FileTree → Prop where
  | made : tree.node? place = none → Stores tree place change (tree.put place (.file (change [])))
  | changed {content : Bytes} : tree.node? place = some (.file content) →
      Stores tree place change (tree.put place (.file (change content)))
  | discarded : tree.node? place = some .nullDevice → Stores tree place change tree
  | nothing : tree.node? place = some .fullDevice → change [] = [] → Stores tree place change tree

/-- **A write that succeeds** is at the path's place and changes what is there. -/
theorem stores_of_write {change : Bytes → Bytes} {after : FileTree}
    (h : write path change tree = (.ok (), after)) :
    ∃ place, tree.WritesTo path place ∧ tree.Stores place change after := by
  rw [write] at h
  split at h
  · cases h
  · cases h
  · cases h
  · -- Past the tests of the path it is the node at the place that decides.
    next directory name htarget =>
    dsimp only at h
    split at h
    · cases h
    · next hlength =>
      refine ⟨directory ++ [name], ⟨directory, name, htarget, Nat.le_of_not_lt hlength, rfl⟩, ?_⟩
      split at h
      · cases h
      · next hnode =>
        obtain ⟨-, rfl⟩ := Prod.mk.inj h
        exact .discarded hnode
      · next hnode =>
        split at h
        · next hnothing =>
          obtain ⟨-, rfl⟩ := Prod.mk.inj h
          exact .nothing hnode hnothing
        · cases h
      · next content hnode =>
        obtain ⟨-, rfl⟩ := Prod.mk.inj h
        exact .changed hnode
      · next hnode =>
        obtain ⟨-, rfl⟩ := Prod.mk.inj h
        exact .made hnode

/-- On a file a write changes the content. -/
theorem Stores.eq_of_file {change : Bytes → Bytes} {content : Bytes} {after : FileTree}
    (h : tree.Stores place change after) (hnode : tree.node? place = some (.file content)) :
    after = tree.put place (.file (change content)) := by
  cases h with
  | changed hother =>
    rw [hnode] at hother
    obtain rfl := Node.file.inj (Option.some.inj hother)
    rfl
  | made hother | discarded hother | nothing hother =>
    rw [hnode] at hother
    cases hother

/-- On a device a write changes nothing. -/
theorem Stores.eq_of_device {change : Bytes → Bytes} {device : Node} {after : FileTree}
    (h : tree.Stores place change after) (hdevice : device.IsDevice)
    (hnode : tree.node? place = some device) : after = tree := by
  cases h with
  | discarded | nothing => rfl
  | made hother | changed hother =>
    rw [hnode] at hother
    rcases hdevice with rfl | rfl <;> cases hother

/-- What is at a place is no device. -/
def NoDeviceAt (tree : FileTree) (place : Place) : Prop :=
  ∀ device : Node, device.IsDevice → tree.node? place ≠ some device

/-- Where nothing is there is no device. -/
theorem noDeviceAt_of_eq_none (h : tree.node? place = none) : tree.NoDeviceAt place := by
  intro device _ hnode
  rw [h] at hnode
  cases hnode

/-- Where a file is there is none either. -/
theorem noDeviceAt_of_eq_file {content : Bytes} (h : tree.node? place = some (.file content)) :
    tree.NoDeviceAt place := by
  intro device hdevice hnode
  rw [h, Option.some.injEq] at hnode
  exact hdevice.ne_file content hnode.symm

/-- A path leads to a file that holds some bytes, if not to a device, which is as
it was, and at every other place is what was there before. -/
structure Rewritten (tree : FileTree) (path : String) (bytes : Bytes) (place : Place)
    (after : FileTree) : Prop where
  locate_eq : after.locate path = .ok place
  file_eq : tree.NoDeviceAt place → after.node? place = some (.file bytes)
  device_eq : ∀ device : Node, device.IsDevice → tree.node? place = some device →
    after.node? place = some device
  other_eq : ∀ other, other ≠ place → after.node? other = tree.node? other

/-- **Making a file anew and giving it a content** leaves no trace of what was
in the file before. -/
theorem rewritten_of_write {bytes : Bytes} {made after : FileTree}
    (hmake : write path (fun _ => []) tree = (.ok (), made))
    (happend : write path (· ++ bytes) made = (.ok (), after)) :
    ∃ place, tree.Rewritten path bytes place after := by
  obtain ⟨place, hwrites, hmade⟩ := stores_of_write hmake
  obtain ⟨other, hother, hstores⟩ := stores_of_write happend
  refine ⟨place, ?_⟩
  have hfile : tree.node? place ≠ some .directory → tree.NoDeviceAt place →
      made = tree.put place (.file []) → tree.Rewritten path bytes place after := by
    rintro hplace hnone rfl
    have hroot := hwrites.ne_nil
    have hempty : (tree.put place (.file [])).node? place = some (.file []) := by
      rw [node?_put hroot, if_pos rfl]
    have hagain := hwrites.put hplace []
    obtain rfl := hagain.unique hother
    obtain rfl := hstores.eq_of_file hempty
    -- What is put there last is all that is seen of the place.
    have hlast := hagain.put (by rw [hempty]; simp) ([] ++ bytes)
    refine ⟨hlast.locate_eq ?_, fun _ => ?_, fun device hdevice hnode => ?_, fun q hq => ?_⟩
    · rw [node?_put hroot, if_pos rfl]
      rfl
    · rw [node?_put hroot, if_pos rfl, List.nil_append]
    · exact absurd hnode (hnone device hdevice)
    · rw [node?_put hroot, if_neg hq, node?_put hroot, if_neg hq]
  have hdevice : ∀ device : Node, device.IsDevice → tree.node? place = some device →
      tree.Rewritten path bytes place after := by
    intro device hdevice hnode
    have hkept := hmade.eq_of_device hdevice hnode
    subst hkept
    obtain rfl := hwrites.unique hother
    have hkept := hstores.eq_of_device hdevice hnode
    subst hkept
    have hthere : (after.node? other).isSome := by
      rw [hnode]
      rfl
    exact ⟨hwrites.locate_eq hthere, fun hnone => absurd hnode (hnone device hdevice),
      fun _ _ hsame => hsame, fun _ _ => rfl⟩
  cases hmade with
  | made hnode => exact hfile (by rw [hnode]; simp) (noDeviceAt_of_eq_none hnode) rfl
  | changed hnode => exact hfile (by rw [hnode]; simp) (noDeviceAt_of_eq_file hnode) rfl
  | discarded hnode => exact hdevice _ (.inl rfl) hnode
  | nothing hnode => exact hdevice _ (.inr rfl) hnode

end FileTree

end EscrowFeed
