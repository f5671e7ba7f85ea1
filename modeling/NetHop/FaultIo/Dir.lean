import NetHop.FaultIo.Triple
import Mathlib.Data.List.AList

/-!
# Directories with one level of subdirectories

The part of a file system that a store owns: a directory of named entries, each
a plain file, a symbolic link, something else (a socket, a device), or a
directory of such leaves.  A rename and a removal of one name are atomic; a file
write and a recursive removal are not, and list the states they pass through.
-/

namespace NetHop.FaultIo

open AList List

/-- A finite map from names to entries; `names` is the order in which the
directory lists them. -/
def Dir (ν β : Type) : Type := AList (fun _ : ν => β)

namespace Dir

variable {ν β : Type} [DecidableEq ν]

def empty : Dir ν β := (∅ : AList (fun _ : ν => β))

variable (d : Dir ν β) (n : ν)

def get : Option β := lookup n d

def set (v : β) : Dir ν β := insert n v d

def del : Dir ν β := erase n d

def names : List ν := keys d

@[simp] theorem get_empty : (empty : Dir ν β).get n = none := rfl

@[simp] theorem get_set (m : ν) (v : β) :
    (d.set n v).get m = if m = n then some v else d.get m := by
  by_cases h : m = n
  · subst h
    rw [if_pos rfl]
    exact lookup_insert (β := fun _ : ν => β) d
  · rw [if_neg h]
    exact lookup_insert_ne h

@[simp] theorem get_del (m : ν) : (d.del n).get m = if m = n then none else d.get m := by
  by_cases h : m = n
  · subst h
    rw [if_pos rfl]
    exact lookup_erase (β := fun _ : ν => β) m d
  · rw [if_neg h]
    exact lookup_erase_ne h

theorem set_set (v w : β) : (d.set n v).set n w = d.set n w := insert_insert (β := fun _ : ν => β) d

theorem mem_names {d : Dir ν β} {n : ν} : n ∈ d.names ↔ (d.get n).isSome :=
  (mem_keys (s := d)).symm.trans lookup_isSome.symm

omit [DecidableEq ν] in
theorem names_nodup : d.names.Nodup := keys_nodup d

end Dir

/-- A regular file: what it holds and whether only its owner may touch it
(`mode & 0o077 == 0`). -/
structure File (β : Type) where
  content : β
  isPrivate : Bool

/-- An entry that is not a directory.  A link carries the file it leads to. -/
inductive Leaf (β : Type) where
  | file (f : File β)
  | symlink (target : Option (File β))
  | special

inductive Node (κ β : Type) where
  | leaf (l : Leaf β)
  | dir (children : Dir κ (Leaf β))

/-- `Path::exists`: a link exists when what it leads to does. -/
def Leaf.resolves {β : Type} : Leaf β → Bool
  | .symlink target => target.isSome
  | _ => true

/-- `fs::read`: a link is followed. -/
def Leaf.read {β : Type} : Leaf β → Option β
  | .file f => some f.content
  | .symlink target => target.map File.content
  | .special => none

namespace Node

variable {κ β : Type}

abbrev file (content : β) (isPrivate : Bool) : Node κ β := .leaf (.file ⟨content, isPrivate⟩)

/-- `metadata.is_dir() && !metadata.file_type().is_symlink()`. -/
def isDir : Node κ β → Bool
  | .dir _ => true
  | .leaf _ => false

/-- `metadata.is_file() && !metadata.file_type().is_symlink()`. -/
def isFile : Node κ β → Bool
  | .leaf (.file _) => true
  | _ => false

def isFull : Node κ β → Bool
  | .dir children => !children.names.isEmpty
  | .leaf _ => false

def resolves : Node κ β → Bool
  | .leaf l => l.resolves
  | .dir _ => true

def read : Node κ β → Option β
  | .leaf l => l.read
  | .dir _ => none

def without [DecidableEq κ] (node : Node κ β) (k : κ) : Node κ β :=
  match node with
  | .dir children => .dir (children.del k)
  | .leaf l => .leaf l

end Node

/-- What a file holds while it is written: `empty` once it is created or
truncated, then the members of `torn`, then the content itself. -/
class Writable (β : Type) where
  empty : β
  torn : β → List β

/-- The contents a fresh file passes through while `content` is written. -/
def writeStates {β : Type} [Writable β] (content : β) : List β :=
  Writable.empty :: (Writable.torn content ++ [content])

abbrev Tree (ν κ β : Type) : Type := Dir ν (Node κ β)

/-- Where a file can stand: an entry of the tree, or a child of one. -/
inductive Slot (ν κ : Type) where
  | entry (name : ν)
  | child (parent : ν) (name : κ)

def Slot.top {ν κ : Type} : Slot ν κ → ν
  | .entry n => n
  | .child n _ => n

namespace Tree

variable {ν κ β ε : Type} [DecidableEq ν] [DecidableEq κ]

/-! ## Effects -/

variable (n : ν) (t : Tree ν κ β)

def unlink : Tree ν κ β := t.del n

def unlinkChild (k : κ) (t : Tree ν κ β) : Tree ν κ β :=
  match t.get n with
  | some (.dir children) => t.set n (.dir (children.del k))
  | _ => t

def makeDir : Tree ν κ β := t.set n (.dir .empty)

/-- Move the entry `p` to the name `q`, over whatever is there. -/
def move (p q : ν) (t : Tree ν κ β) : Tree ν κ β :=
  match t.get p with
  | some node => (t.del p).set q node
  | none => t

/-- Move the child `k` of the directory `n` to the entry `q`, over whatever is there. -/
def moveOut (k : κ) (q : ν) (t : Tree ν κ β) : Tree ν κ β :=
  match t.get n with
  | some (.dir children) =>
    match children.get k with
    | some l => (t.set n (.dir (children.del k))).set q (.leaf l)
    | none => t
  | _ => t

def overwrite (old : Option (Leaf β)) (f : File β) : Leaf β :=
  match old with
  | some (.symlink _) => .symlink (some f)
  | _ => .file f

def put (slot : Slot ν κ) (f : File β) (t : Tree ν κ β) : Tree ν κ β :=
  match slot, t.get slot.top with
  | .entry n, some (.leaf l) => t.set n (.leaf (overwrite (some l) f))
  | .entry n, _ => t.set n (.leaf (.file f))
  | .child n k, some (.dir children) =>
    t.set n (.dir (children.set k (overwrite (children.get k) f)))
  | .child _ _, _ => t

/-! ## Calls -/

/-- `Path::exists` on an entry. -/
def pathExists (n : ν) : Bool := (t.get n).any Node.resolves

/-- Whether `rename(p, q)` is allowed: a directory only moves to a free name or over an empty
directory, a leaf never replaces a directory. -/
def canMove (p q : ν) (t : Tree ν κ β) : Bool :=
  match t.get p, t.get q with
  | some _, none => true
  | some (.leaf _), some (.leaf _) => true
  | some (.dir _), some target => target.isDir && !target.isFull
  | _, _ => false

variable (φ : Fault) (reason : ε)

/-- `fs::rename`. -/
def rename (p q : ν) : Io (Tree ν κ β) ε Unit :=
  Io.step φ reason fun t => if t.canMove p q then some [move p q] else none

def canMoveOut (k : κ) (q : ν) (t : Tree ν κ β) : Bool :=
  match t.get n, t.get q with
  | some (.dir children), none => (children.get k).isSome
  | some (.dir children), some (.leaf _) => (children.get k).isSome
  | _, _ => false

/-- `fs::rename` of a file in a directory to an entry beside it. -/
def renameOut (n : ν) (k : κ) (q : ν) : Io (Tree ν κ β) ε Unit :=
  Io.step φ reason fun t => if t.canMoveOut n k q then some [moveOut n k q] else none

def removeFile (n : ν) : Io (Tree ν κ β) ε Unit :=
  Io.step φ reason fun t =>
    match t.get n with
    | some (.leaf _) => some [unlink n]
    | _ => none

/-- `fs::remove_dir_all`: the children one by one, then the directory.  A link is
unlinked, a plain file is refused. -/
def removeDirAll (n : ν) : Io (Tree ν κ β) ε Unit :=
  Io.step φ reason fun t =>
    match t.get n with
    | some (.dir children) => some (children.names.map (unlinkChild n) ++ [unlink n])
    | some (.leaf (.symlink _)) => some [unlink n]
    | _ => none

/-- `mkdir`, refused when the name is taken. -/
def createDir (n : ν) : Io (Tree ν κ β) ε Unit :=
  Io.step φ reason fun t =>
    match t.get n with
    | none => some [makeDir n]
    | some _ => none

/-- What stands at a slot that a file can be opened at; `none` when a directory
or something special is in the way, or the parent is missing. -/
def leafAt : Slot ν κ → Option (Option (Leaf β))
  | .entry n =>
    match t.get n with
    | none => some none
    | some (.leaf .special) => none
    | some (.leaf l) => some (some l)
    | some (.dir _) => none
  | .child n k =>
    match t.get n with
    | some (.dir children) =>
      match children.get k with
      | some .special => none
      | l => some l
    | _ => none

def wasPrivate : Option (Leaf β) → Bool
  | some (.file f) => f.isPrivate
  | some (.symlink (some f)) => f.isPrivate
  | _ => true

/-- What a file opened with `create` and `truncate` holds in turn: the bits of a
file that was there are only set after it is truncated. -/
def syncStates [Writable β] (old : Option (Leaf β)) (content : β) : List (File β) :=
  ⟨Writable.empty, wasPrivate old⟩ :: (writeStates content).map (⟨·, true⟩)

/-- Create or truncate, make private, write, flush. -/
def writeSync [Writable β] (φ : Fault) (reason : ε) (slot : Slot ν κ) (content : β) :
    Io (Tree ν κ β) ε Unit :=
  Io.step φ reason fun t =>
    (t.leafAt slot).map fun old => (syncStates old content).map (put slot)

/-- Create a file that is not there yet, write, flush. -/
def writeNew [Writable β] (φ : Fault) (reason : ε) (slot : Slot ν κ) (content : β) :
    Io (Tree ν κ β) ε Unit :=
  Io.step φ reason fun t =>
    match t.leafAt slot with
    | some none => some (((writeStates content).map (⟨·, true⟩)).map (put slot))
    | _ => none

/-- The directory is flushed; nothing that can be seen changes. -/
def syncDirectory : Io (Tree ν κ β) ε Unit :=
  Io.probe φ reason

/-! ## What the effects leave alone -/

omit [DecidableEq κ] in
@[simp] theorem get_unlink (m : ν) (t : Tree ν κ β) :
    (unlink n t).get m = if m = n then none else t.get m := Dir.get_del t n m

omit [DecidableEq κ] in
@[simp] theorem get_makeDir (m : ν) (t : Tree ν κ β) :
    (makeDir n t).get m = if m = n then some (.dir .empty) else t.get m := Dir.get_set t n m _

theorem get_unlinkChild_self (n : ν) (k : κ) (t : Tree ν κ β) :
    (unlinkChild n k t).get n = (t.get n).map (·.without k) := by
  unfold unlinkChild
  rcases h : t.get n with _ | l | children <;> simp [h, Node.without]

theorem get_unlinkChild_ne {n m : ν} (h : m ≠ n) (k : κ) (t : Tree ν κ β) :
    (unlinkChild n k t).get m = t.get m := by
  unfold unlinkChild
  split
  · rw [Dir.get_set, if_neg h]
  · rfl

omit [DecidableEq κ] in
theorem get_move (p q m : ν) (t : Tree ν κ β) : (move p q t).get m =
      if (t.get p).isNone then t.get m else if m = q then t.get p
      else if m = p then none else t.get m := by
  unfold move
  split
  · next node h => simp [h]
  · next h => simp [h]

variable {t : Tree ν κ β}

omit [DecidableEq κ] in
theorem get_move_of_some {p : ν} {v : Node κ β} (h : t.get p = some v) (q m : ν) :
    (move p q t).get m = if m = q then some v else if m = p then none else t.get m := by
  simp [get_move, h]

theorem get_moveOut_ne {n m q : ν} (hn : m ≠ n) (hq : m ≠ q) (k : κ) (t : Tree ν κ β) :
    (moveOut n k q t).get m = t.get m := by
  unfold moveOut
  split
  · split
    · rw [Dir.get_set, if_neg hq, Dir.get_set, if_neg hn]
    · rfl
  · rfl

theorem get_moveOut {n : ν} {k : κ} {children : Dir κ (Leaf β)} {l : Leaf β}
    (hn : t.get n = some (.dir children)) (hk : children.get k = some l) (q m : ν) :
    (moveOut n k q t).get m = if m = q then some (.leaf l)
      else if m = n then some (.dir (children.del k)) else t.get m := by
  simp [moveOut, hn, hk]

variable {slot : Slot ν κ}

theorem get_put_ne {m : ν} (h : m ≠ slot.top) (f : File β)
    (t : Tree ν κ β) : (put slot f t).get m = t.get m := by
  cases slot with
  | entry n | child n k =>
    unfold put
    split <;> simp_all [Slot.top]

/-! ## What the calls preserve

A call preserves what its effects preserve, however it ends. -/

section Frame

variable {m n p q : ν} {v : Option (Node κ β)} {φ : Fault} {reason : ε} {I : Tree ν κ β → Prop}

omit [DecidableEq κ] in
theorem keeps_rename (h : ∀ t, I t → I (move p q t)) : Io.Keeps I (rename φ reason p q) := by
  refine .step fun t fs heff f hf u hu => ?_
  split at heff
  · cases heff
    cases mem_singleton.mp hf
    exact h u hu
  · cases heff

theorem keeps_renameOut {k : κ} (h : ∀ t, I t → I (moveOut n k q t)) :
    Io.Keeps I (renameOut φ reason n k q) := by
  refine .step fun t fs heff f hf u hu => ?_
  split at heff
  · cases heff
    cases mem_singleton.mp hf
    exact h u hu
  · cases heff

omit [DecidableEq κ] in
theorem keeps_removeFile (h : ∀ t, I t → I (unlink n t)) : Io.Keeps I (removeFile φ reason n) := by
  refine .step fun t fs heff f hf u hu => ?_
  split at heff
  · cases heff
    cases mem_singleton.mp hf
    exact h u hu
  · cases heff

theorem keeps_removeDirAll (hchild : ∀ k t, I t → I (unlinkChild n k t))
    (h : ∀ t, I t → I (unlink n t)) : Io.Keeps I (removeDirAll φ reason n) := by
  refine .step fun t fs heff f hf u hu => ?_
  split at heff
  · cases heff
    rcases mem_append.mp hf with hf | hf
    · obtain ⟨k, -, rfl⟩ := mem_map.mp hf
      exact hchild k u hu
    · cases mem_singleton.mp hf
      exact h u hu
  · cases heff
    cases mem_singleton.mp hf
    exact h u hu
  · cases heff

omit [DecidableEq κ] in
theorem keeps_createDir (h : ∀ t, I t → I (makeDir n t)) : Io.Keeps I (createDir φ reason n) := by
  refine .step fun t fs heff f hf u hu => ?_
  split at heff
  · cases heff
    cases mem_singleton.mp hf
    exact h u hu
  · cases heff

variable {content : β}

theorem keeps_writeNew [Writable β]
    (h : ∀ f t, I t → I (put slot f t)) : Io.Keeps I (writeNew φ reason slot content) := by
  refine .step fun t fs heff f hf u hu => ?_
  split at heff
  · cases heff
    obtain ⟨g, -, rfl⟩ := mem_map.mp hf
    exact h g u hu
  · cases heff

/-- The program leaves the entry of a name as it is. -/
abbrev Frames {α : Type} (n : ν) (v : Option (Node κ β)) (prog : Io (Tree ν κ β) ε α) : Prop :=
  Io.Keeps (fun t => t.get n = v) prog

/-! Each call leaves every entry it does not name alone. -/

omit [DecidableEq κ] in
theorem frame_rename (hp : m ≠ p) (hq : m ≠ q) : Frames m v (rename φ reason p q) :=
  keeps_rename fun t ht => by rw [get_move, if_neg hq, if_neg hp, ite_self, ht]

theorem frame_renameOut {k : κ} (hn : m ≠ n) (hq : m ≠ q) : Frames m v (renameOut φ reason n k q) :=
  keeps_renameOut fun t ht => by rw [get_moveOut_ne hn hq, ht]

omit [DecidableEq κ] in
theorem frame_removeFile (h : m ≠ n) : Frames m v (removeFile φ reason n) :=
  keeps_removeFile fun t ht => by rw [get_unlink, if_neg h, ht]

theorem frame_removeDirAll (h : m ≠ n) : Frames m v (removeDirAll φ reason n) :=
  keeps_removeDirAll (fun k t ht => by rw [get_unlinkChild_ne h, ht])
    fun t ht => by rw [get_unlink, if_neg h, ht]

omit [DecidableEq κ] in
theorem frame_createDir (h : m ≠ n) : Frames m v (createDir φ reason n) :=
  keeps_createDir fun t ht => by rw [get_makeDir, if_neg h, ht]

theorem frame_writeSync [Writable β] (h : m ≠ slot.top) :
    Frames m v (writeSync φ reason slot content) := by
  refine .step fun t fs heff f hf u hu => ?_
  obtain ⟨old, -, rfl⟩ := Option.map_eq_some_iff.mp heff
  obtain ⟨g, -, rfl⟩ := mem_map.mp hf
  rw [get_put_ne h, hu]

theorem frame_writeNew [Writable β] (h : m ≠ slot.top) :
    Frames m v (writeNew φ reason slot content) :=
  keeps_writeNew fun f t ht => by rw [get_put_ne h, ht]

omit [DecidableEq κ] in
theorem frame_syncDirectory : Frames m v (syncDirectory φ reason) := Io.Keeps.probe _ _

end Frame

def SameOn (P : ν → Prop) (s t : Tree ν κ β) : Prop := ∀ m, P m → t.get m = s.get m

variable {P : ν → Prop}

omit [DecidableEq κ] in
theorem SameOn.refl (s : Tree ν κ β) : SameOn P s s := fun _ _ => rfl

omit [DecidableEq κ] in
theorem SameOn.trans {s t u : Tree ν κ β} (h : SameOn P s t)
    (h' : SameOn P t u) : SameOn P s u := fun m hm => (h' m hm).trans (h m hm)

omit [DecidableEq κ] in
theorem sameOn_of_frame {α : Type} {m : Io (Tree ν κ β) ε α} (h : ∀ n, P n → ∀ v, Frames n v m)
    (s : Tree ν κ β) : SameOn P s (m s).2 := fun n hn => h n hn (s.get n) s rfl

end Tree

end NetHop.FaultIo
