import EnigmaMemory.Lib.Ordered
import EnigmaMemory.Lib.Result

/-!
# Files in directories

A tree of files and directories over an arbitrary type of names. A path lists the names from
the entry up to the root, so that the parent of `name :: path` is `path`; the root is a
directory and is no entry. Every entry lies in a directory: a tree in which one does not
cannot be built.

The operations are those of a standard library on files. They fail where the system calls do
(a missing file, a directory in the place of a file) and then leave the tree as it is, but for
`createDirAll`, which keeps the directories that it made before it failed.

* The rules `keeps_write_of` to `keeps_rename_of` lift a relation between trees, such as
  `Off P` (nothing has changed outside of `P`), from the two ways of changing a tree to the
  operations.
-/

open EStateM (Keeps)

inductive IoError where
  | notFound
  | isADirectory
  | notADirectory
  deriving DecidableEq, Repr

inductive FileNode where
  | file (data : List UInt8)
  | directory
  deriving DecidableEq, Repr

structure FileTree (N : Type) [DecidableEq N] where
  nodes : OrdMap (List N) FileNode
  rooted : ∀ n p, nodes.has (n :: p) = true → p = [] ∨ nodes.get p = some .directory

namespace FileTree

variable {N : Type} [DecidableEq N]

def empty : FileTree N := ⟨OrdMap.empty, fun _ _ h => nomatch h⟩

/-- What stands at a path. -/
def node (t : FileTree N) : List N → Option FileNode
  | [] => some .directory
  | n :: p => t.nodes.get (n :: p)

@[simp] theorem node_nil (t : FileTree N) : t.node [] = some .directory := rfl

@[simp] theorem node_empty (n : N) (p : List N) : (empty : FileTree N).node (n :: p) = none := rfl

/-- An entry lies in a directory. -/
theorem node_parent {t : FileTree N} {n : N} {p : List N} (h : t.node (n :: p) ≠ none) : t.node p = some .directory := by
  have hhas : t.nodes.has (n :: p) = true := by
    rw [OrdMap.has, ← Option.ne_none_iff_isSome]
    exact h
  rcases t.rooted n p hhas with rfl | hdir
  · rfl
  · cases p with
    | nil => rfl
    | cons m p => exact hdir

/-! ## Writing to a tree -/

/-- A file may stand at the path: its directory is there, and no directory is in its place. -/
def Holds (t : FileTree N) (path : List N) : Prop :=
  t.node path.tail = some .directory ∧ t.node path ≠ some .directory

instance (t : FileTree N) (path : List N) : Decidable (t.Holds path) := inferInstanceAs (Decidable (_ ∧ _))

theorem Holds.ne_nil {t : FileTree N} {path : List N} (h : t.Holds path) : path ≠ [] := by
  rintro rfl
  exact h.2 rfl

/-- The tree with a file at a path that may hold one. -/
def put (t : FileTree N) (path : List N) (data : List UInt8) (h : t.Holds path) : FileTree N where
  nodes := t.nodes.set path (.file data)
  rooted := by
    intro n p hp
    rw [OrdMap.has_set, Bool.or_eq_true, decide_eq_true_eq] at hp
    rw [OrdMap.get_set]
    rcases hp with rfl | hp
    · -- the new file itself
      cases p with
      | nil => exact Or.inl rfl
      | cons m p => exact Or.inr (by rw [if_neg (List.cons_ne_self n (m :: p)).symm]; exact h.1)
    · -- an entry that was there: it does not lie under the path, which is no directory
      rcases t.rooted n p hp with rfl | hdir
      · exact Or.inl rfl
      · refine Or.inr ?_
        split
        · rename_i heq
          subst heq
          refine absurd ?_ h.2
          cases p with
          | nil => rfl
          | cons m p => exact hdir
        · exact hdir

@[simp] theorem node_put {t : FileTree N} {path : List N} {data : List UInt8} (h : t.Holds path) (q : List N) :
    (t.put path data h).node q = if q = path then some (.file data) else t.node q := by
  cases q with
  | nil => rw [if_neg h.ne_nil.symm]; rfl
  | cons m q => exact OrdMap.get_set

/-- A file that is written over with what it holds. -/
theorem put_eq_self_iff {t : FileTree N} {path : List N} {data : List UInt8} (h : t.Holds path) :
    t.put path data h = t ↔ t.node path = some (.file data) := by
  obtain ⟨n, p, rfl⟩ := List.exists_cons_of_ne_nil h.ne_nil
  exact ⟨fun he => OrdMap.set_eq_self_iff.1 (congrArg nodes he), fun he => by
    cases t
    simp only [put, mk.injEq]
    exact OrdMap.set_eq_self_iff.2 he⟩

/-- The tree without the file at a path. -/
def erase (t : FileTree N) (path : List N) (h : t.node path ≠ some .directory) : FileTree N where
  nodes := t.nodes.delete path
  rooted := by
    intro n p hp
    rw [OrdMap.has_eq_true] at hp
    obtain ⟨v, hp⟩ := hp
    rw [OrdMap.get_delete] at hp
    rw [OrdMap.get_delete]
    split at hp
    · cases hp
    · rcases t.rooted n p (OrdMap.has_eq_true.2 ⟨v, hp⟩) with rfl | hdir
      · exact Or.inl rfl
      · refine Or.inr ?_
        split
        · rename_i heq
          subst heq
          refine absurd ?_ h
          cases p with
          | nil => rfl
          | cons m p => exact hdir
        · exact hdir

@[simp] theorem node_erase {t : FileTree N} {path : List N} (h : t.node path ≠ some .directory) (q : List N) :
    (t.erase path h).node q = if q = path then none else t.node q := by
  cases q with
  | nil =>
    rw [if_neg]
    · rfl
    · rintro rfl
      exact h rfl
  | cons m q => exact OrdMap.get_delete

/-- The tree with a directory at a path where there is nothing. -/
def putDir (t : FileTree N) (path : List N) (h : t.node path.tail = some .directory) (hnone : t.node path = none) :
    FileTree N where
  nodes := t.nodes.set path .directory
  rooted := by
    intro n p hp
    rw [OrdMap.has_set, Bool.or_eq_true, decide_eq_true_eq] at hp
    rw [OrdMap.get_set]
    split
    · exact Or.inr rfl
    · rcases hp with rfl | hp
      · cases p with
        | nil => exact Or.inl rfl
        | cons m p => exact Or.inr h
      · exact t.rooted n p hp

@[simp] theorem node_putDir {t : FileTree N} {path : List N} (h : t.node path.tail = some .directory)
    (hnone : t.node path = none) (q : List N) :
    (t.putDir path h hnone).node q = if q = path then some .directory else t.node q := by
  cases q with
  | nil =>
    rw [if_neg]
    · rfl
    · rintro rfl
      cases hnone
  | cons m q => exact OrdMap.get_set

/-! ## Operations -/

/-- `path.exists()` -/
def hasEntry (t : FileTree N) (path : List N) : Bool := (t.node path).isSome

abbrev Io (N : Type) [DecidableEq N] := EStateM IoError (FileTree N)

def read (path : List N) : Io N (List UInt8) := fun t =>
  match t.node path with
  | some (.file data) => .ok data t
  | some .directory => .error .isADirectory t
  | none => .error .notFound t

def write (path : List N) (data : List UInt8) : Io N Unit := fun t =>
  if h : t.Holds path then .ok () (t.put path data h)
  else .error (if t.node path = some .directory then .isADirectory else .notFound) t

/-- A file copied over itself is left empty. -/
def copy (source target : List N) : Io N Unit := do
  let data ← read source
  write target (if source = target then [] else data)

def removeFile (path : List N) : Io N Unit := fun t =>
  if h : t.node path ≠ some .directory then
    if t.hasEntry path then .ok () (t.erase path h) else .error .notFound t
  else .error .isADirectory t

/-- A file takes another name, over whatever file has it. -/
def rename (source target : List N) : Io N Unit := do
  let data ← read source
  if source = target then pure ()
  else
    write target data
    removeFile source

def createDir (path : List N) : Io N Unit := fun t =>
  if h : t.node path.tail = some .directory ∧ t.node path = none then .ok () (t.putDir path h.1 h.2)
  else .error .notADirectory t

def createDirAll : List N → Io N Unit
  | [] => pure ()
  | n :: parent => fun t =>
    match t.node (n :: parent) with
    | some .directory => .ok () t
    | some (.file _) => .error .notADirectory t
    | none => (createDirAll parent >>= fun _ => createDir (n :: parent)) t

/-- The names in a directory. -/
def readDir (t : FileTree N) (path : List N) : List N :=
  t.nodes.keys.filterMap fun q =>
    match q with
    | [] => none
    | n :: p => if p = path then some n else none

theorem mem_readDir {t : FileTree N} {path : List N} {n : N} : n ∈ t.readDir path ↔ t.node (n :: path) ≠ none := by
  rw [readDir, List.mem_filterMap, node, ← Option.isSome_iff_ne_none, ← OrdMap.has, ← OrdMap.mem_keys]
  constructor
  · rintro ⟨q, hq, hn⟩
    cases q with
    | nil => cases hn
    | cons m p =>
      simp only [Option.ite_none_right_eq_some, Option.some.injEq] at hn
      obtain ⟨rfl, rfl⟩ := hn
      exact hq
  · intro h
    exact ⟨n :: path, h, by simp⟩

/-! ## What the operations leave -/

theorem read_eq {path : List N} {t : FileTree N} {data : List UInt8} (h : t.node path = some (.file data)) :
    read path t = .ok data t := by
  rw [read, h]

theorem read_eq_error {path : List N} {t : FileTree N} (h : ∀ data, t.node path ≠ some (.file data)) :
    ∃ e, read path t = .error e t := by
  rw [read]
  split
  · rename_i data hnode
    exact absurd hnode (h data)
  · exact ⟨_, rfl⟩
  · exact ⟨_, rfl⟩

theorem keeps_read (path : List N) : Keeps Eq (read path) := by
  intro t
  by_cases h : ∃ data, t.node path = some (.file data)
  · obtain ⟨data, h⟩ := h
    rw [EStateM.after, read_eq h]
  · obtain ⟨e, he⟩ := read_eq_error (not_exists.1 h)
    rw [EStateM.after, he]

theorem write_eq {path : List N} {t : FileTree N} (h : t.Holds path) (data : List UInt8) :
    write path data t = .ok () (t.put path data h) := dif_pos h

theorem write_eq_error {path : List N} {t : FileTree N} (h : ¬ t.Holds path) (data : List UInt8) :
    ∃ e, write path data t = .error e t := ⟨_, dif_neg h⟩

theorem copy_eq {source target : List N} {t : FileTree N} {data : List UInt8} (hs : t.node source = some (.file data))
    (hne : source ≠ target) (ht : t.Holds target) : copy source target t = .ok () (t.put target data ht) := by
  rw [copy, EStateM.bind_of_ok (read_eq hs), if_neg hne, write_eq ht]

theorem holds_of_file {path : List N} {t : FileTree N} {data : List UInt8} (h : t.node path = some (.file data)) :
    t.Holds path := by
  refine ⟨?_, by rw [h]; exact nofun⟩
  cases path with
  | nil => cases h
  | cons n p =>
    have hne : t.node (n :: p) ≠ none := by rw [h]; exact nofun
    exact node_parent hne

theorem read_ok {path : List N} {t t' : FileTree N} {data : List UInt8} (h : read path t = .ok data t') :
    t.node path = some (.file data) ∧ t' = t := by
  rw [read] at h
  split at h
  · rename_i hnode
    cases h
    exact ⟨hnode, rfl⟩
  · cases h
  · cases h

theorem write_ok {path : List N} {t t' : FileTree N} {data : List UInt8} {u : Unit} (h : write path data t = .ok u t') :
    ∃ hh : t.Holds path, t' = t.put path data hh := by
  rw [write] at h
  split at h
  · rename_i hh
    cases h
    exact ⟨hh, rfl⟩
  · cases h

theorem copy_ok {source target : List N} {t t' : FileTree N} {u : Unit} (hne : source ≠ target)
    (h : copy source target t = .ok u t') :
    ∃ data, t.node source = some (.file data) ∧ ∃ hh : t.Holds target, t' = t.put target data hh := by
  obtain ⟨data, t₁, hread, hwrite⟩ := EStateM.bind_eq_ok.1 h
  obtain ⟨hnode, rfl⟩ := read_ok hread
  rw [if_neg hne] at hwrite
  exact ⟨data, hnode, write_ok hwrite⟩

/-! ## Relations that operations keep -/

section Rules

variable {R : FileTree N → FileTree N → Prop}

theorem keeps_write_of (hrefl : ∀ t, R t t) {path : List N} {data : List UInt8}
    (hput : ∀ t (h : FileTree.Holds t path), R t (t.put path data h)) : Keeps R (write path data) := by
  intro t
  by_cases h : t.Holds path
  · rw [EStateM.after, write_eq h]
    exact hput t h
  · obtain ⟨e, he⟩ := write_eq_error h data
    rw [EStateM.after, he]
    exact hrefl t

theorem keeps_read_of (hrefl : ∀ t, R t t) (path : List N) : Keeps R (read path) :=
  fun t => keeps_read path t ▸ hrefl t

theorem keeps_copy_of (hrefl : ∀ t, R t t) (htrans : ∀ a b c, R a b → R b c → R a c) (source : List N) {target : List N}
    (hput : ∀ t data (h : FileTree.Holds t target), R t (t.put target data h)) : Keeps R (copy source target) :=
  EStateM.keeps_bind htrans (keeps_read_of hrefl source) fun _ => keeps_write_of hrefl fun t => hput t _

theorem keeps_removeFile_of (hrefl : ∀ t, R t t) {path : List N} (herase : ∀ t h, R t (FileTree.erase t path h)) :
    Keeps R (removeFile path) := by
  intro t
  rw [EStateM.after, removeFile]
  by_cases h : t.node path ≠ some .directory
  · rw [dif_pos h]
    cases t.hasEntry path with
    | false => exact hrefl t
    | true => exact herase t h
  · rw [dif_neg h]
    exact hrefl t

theorem keeps_rename_of (hrefl : ∀ t, R t t) (htrans : ∀ a b c, R a b → R b c → R a c) {source target : List N}
    (hput : ∀ t data (h : FileTree.Holds t target), R t (t.put target data h))
    (herase : ∀ t h, R t (FileTree.erase t source h)) : Keeps R (rename source target) := by
  refine EStateM.keeps_bind htrans (keeps_read_of hrefl source) fun data => ?_
  split
  · exact EStateM.keeps_pure hrefl ()
  · exact EStateM.keeps_bind htrans (keeps_write_of hrefl fun t => hput t data) fun _ => keeps_removeFile_of hrefl herase

end Rules

/-- Nothing has changed outside of `P`. -/
def Off (P : List N → Prop) (s t : FileTree N) : Prop := ∀ q, ¬ P q → t.node q = s.node q

theorem off_refl (P : List N → Prop) (t : FileTree N) : Off P t t := fun _ _ => rfl

theorem off_trans {P : List N → Prop} (a b c : FileTree N) (hab : Off P a b) (hbc : Off P b c) : Off P a c :=
  fun q hq => (hbc q hq).trans (hab q hq)

theorem off_put {P : List N → Prop} {path : List N} (hP : P path) (t : FileTree N) (data : List UInt8)
    (h : t.Holds path) : Off P t (t.put path data h) := by
  intro q hq
  rw [node_put, if_neg]
  rintro rfl
  exact hq hP

theorem off_erase {P : List N → Prop} {path : List N} (hP : P path) (t : FileTree N)
    (h : t.node path ≠ some .directory) : Off P t (t.erase path h) := by
  intro q hq
  rw [node_erase, if_neg]
  rintro rfl
  exact hq hP

/-- No directory has come to stand at `path`. -/
def NoDirectory (path : List N) (s t : FileTree N) : Prop := s.node path ≠ some .directory → t.node path ≠ some .directory

theorem noDirectory_refl (path : List N) (t : FileTree N) : NoDirectory path t t := fun h => h

theorem noDirectory_trans {path : List N} (a b c : FileTree N) (hab : NoDirectory path a b) (hbc : NoDirectory path b c) :
    NoDirectory path a c := hbc ∘ hab

theorem noDirectory_put (path : List N) {target : List N} (t : FileTree N) (data : List UInt8) (h : t.Holds target) :
    NoDirectory path t (t.put target data h) := by
  intro hpath
  rw [node_put]
  split
  · exact nofun
  · exact hpath

theorem noDirectory_erase (path : List N) {target : List N} (t : FileTree N) (h : t.node target ≠ some .directory) :
    NoDirectory path t (t.erase target h) := by
  intro hpath
  rw [node_erase]
  split
  · exact nofun
  · exact hpath

/-- A file that was at `path` has a file in its place. -/
def StaysFile (path : List N) (s t : FileTree N) : Prop :=
  (∃ data, s.node path = some (.file data)) → ∃ data, t.node path = some (.file data)

theorem staysFile_refl (path : List N) (t : FileTree N) : StaysFile path t t := fun h => h

theorem staysFile_trans {path : List N} (a b c : FileTree N) (hab : StaysFile path a b) (hbc : StaysFile path b c) :
    StaysFile path a c := hbc ∘ hab

theorem staysFile_put (path : List N) {target : List N} (t : FileTree N) (data : List UInt8) (h : t.Holds target) :
    StaysFile path t (t.put target data h) := by
  intro hpath
  rw [node_put]
  split
  · exact ⟨data, rfl⟩
  · exact hpath

theorem staysFile_erase {path target : List N} (hne : target ≠ path) (t : FileTree N)
    (h : t.node target ≠ some .directory) : StaysFile path t (t.erase target h) := by
  intro hpath
  rw [node_erase, if_neg hne.symm]
  exact hpath

theorem removeFile_eq {path : List N} {t : FileTree N} {data : List UInt8} (h : t.node path = some (.file data)) :
    removeFile path t = .ok () (t.erase path (by rw [h]; exact nofun)) := by
  have hne : t.node path ≠ some .directory := by rw [h]; exact nofun
  rw [removeFile, dif_pos hne, if_pos]
  rw [hasEntry, h]
  rfl

/-- A renamed file stands at its new path, and nothing else has changed. -/
theorem rename_ok {source target : List N} {t t' : FileTree N} {u : Unit} (hne : source ≠ target)
    (h : rename source target t = .ok u t') :
    ∃ data, t.node source = some (.file data) ∧
      ∀ q, t'.node q = if q = source then none else if q = target then some (.file data) else t.node q := by
  obtain ⟨data, t₁, hread, hmove⟩ := EStateM.bind_eq_ok.1 h
  obtain ⟨hs, rfl⟩ := read_ok hread
  rw [if_neg hne] at hmove
  obtain ⟨_, t₂, hwrite, hremove⟩ := EStateM.bind_eq_ok.1 hmove
  obtain ⟨ht, rfl⟩ := write_ok hwrite
  have hs' : (t₁.put target data ht).node source = some (.file data) := by
    rw [node_put, if_neg hne, hs]
  rw [removeFile_eq hs'] at hremove
  cases hremove
  exact ⟨data, hs, fun q => by rw [node_erase, node_put]⟩

/-- A file that is removed is gone, and so is one that was not there. -/
theorem removeFile_after {path : List N} {t : FileTree N} (h : t.node path ≠ some .directory) :
    ((removeFile path).after t).node path = none := by
  rw [EStateM.after, removeFile, dif_pos h]
  cases hentry : t.hasEntry path with
  | false => simpa [hasEntry] using hentry
  | true =>
    change (t.erase path h).node path = none
    rw [node_erase, if_pos rfl]

/-- Directories may have been made on the way to `path`, and nothing else. -/
def Made (path : List N) (s t : FileTree N) : Prop :=
  ∀ q, t.node q = s.node q ∨ s.node q = none ∧ t.node q = some .directory ∧ q <:+ path

theorem made_refl (path : List N) (t : FileTree N) : Made path t t := fun _ => Or.inl rfl

theorem made_trans {path : List N} (a b c : FileTree N) (hab : Made path a b) (hbc : Made path b c) : Made path a c := by
  intro q
  rcases hab q with h | ⟨hnone, hdir, hq⟩
  · exact (hbc q).imp (·.trans h) (fun h' => ⟨h ▸ h'.1, h'.2⟩)
  · rcases hbc q with h' | ⟨h', -, -⟩
    · exact Or.inr ⟨hnone, h'.trans hdir, hq⟩
    · rw [hdir] at h'
      cases h'

theorem createDirAll_cons (n : N) (parent : List N) (t : FileTree N) :
    createDirAll (n :: parent) t =
      match t.node (n :: parent) with
      | some .directory => .ok () t
      | some (.file _) => .error .notADirectory t
      | none => (createDirAll parent >>= fun _ => createDir (n :: parent)) t := rfl

theorem Made.staysFile {path : List N} {s t : FileTree N} (h : Made path s t) (q : List N) : StaysFile q s t := by
  rintro ⟨data, hdata⟩
  rcases h q with heq | ⟨hnone, -, -⟩
  · exact ⟨data, heq.trans hdata⟩
  · rw [hdata] at hnone
    cases hnone

theorem Made.off {path : List N} {s t : FileTree N} (h : Made path s t) {P : List N → Prop} (hP : ∀ q, q <:+ path → P q) :
    Off P s t := by
  intro q hq
  rcases h q with heq | ⟨-, -, hsuffix⟩
  · exact heq
  · exact absurd (hP q hsuffix) hq

theorem keeps_createDir {path p : List N} (hp : p <:+ path) : Keeps (Made path) (createDir p) := by
  intro t
  by_cases h : t.node p.tail = some .directory ∧ t.node p = none
  · rw [EStateM.after, createDir, dif_pos h]
    intro q
    rw [node_putDir]
    split
    · rename_i hq
      exact Or.inr ⟨hq ▸ h.2, rfl, hq ▸ hp⟩
    · exact Or.inl rfl
  · rw [EStateM.after, createDir, dif_neg h]
    exact made_refl path t

theorem keeps_createDirAll {path p : List N} (hp : p <:+ path) : Keeps (Made path) (createDirAll p) := by
  induction p with
  | nil => exact EStateM.keeps_pure (made_refl path) ()
  | cons n parent ih =>
    have hrec : Keeps (Made path) (createDirAll parent >>= fun _ => createDir (n :: parent)) :=
      EStateM.keeps_bind made_trans (ih ((List.suffix_cons n parent).trans hp)) fun _ => keeps_createDir hp
    intro t
    have hcons := createDirAll_cons n parent t
    cases hn : t.node (n :: parent) with
    | none =>
      rw [hn] at hcons
      rw [EStateM.after, hcons]
      exact hrec t
    | some x =>
      rw [hn] at hcons
      cases x with
      | file data => rw [EStateM.after, hcons]; exact made_refl path t
      | directory => rw [EStateM.after, hcons]; exact made_refl path t

theorem createDirAll_of_directory {path : List N} {t : FileTree N} (h : t.node path = some .directory) :
    createDirAll path t = .ok () t := by
  cases path with
  | nil => rfl
  | cons n parent => rw [createDirAll_cons, h]

/-- The path is a directory afterwards. -/
theorem createDirAll_eq_ok {path : List N} {s t : FileTree N} {u : Unit} (h : createDirAll path s = .ok u t) :
    t.node path = some .directory := by
  cases path with
  | nil => rfl
  | cons n parent =>
    rw [createDirAll_cons] at h
    split at h
    · rename_i hdir
      cases h
      exact hdir
    · cases h
    · obtain ⟨_, r, -, h⟩ := EStateM.bind_eq_ok.1 h
      rw [createDir] at h
      split at h
      · cases h
        rw [node_putDir, if_pos rfl]
      · cases h

end FileTree
