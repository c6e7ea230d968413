import Mathlib.Data.Set.Insert
import SecureKit.Base.FileSystem

/-!
# What a crash leaves of a file system

A `FileSystem` is what the programs see.  A crash leaves what has reached the disk, and of that POSIX
promises little: the contents of a file are there after an `fsync` of the file, and its names after
an `fsync` of the directory they are in.  `Disk` is what is known of the disk, on this promise alone:
which files are on it as they are (`Disk.synced`), and for each name the files it can refer to after
a crash, which are all it has referred to since its directory was last synced (`Disk.entries`).
`Disk.Survives` are the file systems a crash can leave: a file that is not synced holds anything.

`DiskExecution` is an execution together with its disk.  Which directory a path lies in is a
parameter; the path of a directory handle is that of the last successful call that opened one
(`openedDirectory`).
-/

namespace Posix

/-! ## The disk -/

/-- What is known of the disk. -/
structure Disk where
  /-- The files that are on the disk as the programs see them. -/
  synced : Set ℕ
  /-- What a name can refer to after a crash. -/
  entries : Path → Set (Option ℕ)

/-- The directory a program has open. -/
def openedDirectory (done : List Event) : Option Path :=
  done.foldl (fun directory e =>
    match e with
    | .openDirectory path true => some path
    | .closeDirectory _ => none
    | _ => directory) none

namespace Disk

/-- The file system has changed, and nothing of that has to be on the disk yet. -/
def follow (disk : Disk) (fs fs' : FileSystem) : Disk where
  synced := {n | n ∈ disk.synced ∧ fs'.contents n = fs.contents n}
  entries path := insert (fs'.entry path) (disk.entries path)

/-- What a call does to the disk, of a program that has `directory` open. -/
def after (parent : Path → Path) (directory : Option Path) (disk : Disk) (fs : FileSystem) :
    Event → Disk
  | .fsync n true =>
    { disk with synced := {file | file ∈ disk.synced ∨ ∃ s, fs.stream n = some s ∧ s.file = file} }
  | .syncDirectory true =>
    { disk with
      entries := fun path =>
        if directory = some (parent path) then {fs.entry path} else disk.entries path }
  | e => disk.follow fs (fs.after e)

/-- The file systems a crash can leave. -/
structure Survives (disk : Disk) (fs crashed : FileSystem) : Prop where
  entry : ∀ path, crashed.entry path ∈ disk.entries path
  contents : ∀ n ∈ disk.synced, crashed.contents n = fs.contents n
  stream : ∀ n, crashed.stream n = none

/-- The disk belongs to the file system: what is seen can be on it, and no name refers to a file that
does not exist. -/
structure Knows (disk : Disk) (fs : FileSystem) : Prop where
  entry : ∀ path, fs.entry path ∈ disk.entries path
  contents_ne_none : ∀ path n, some n ∈ disk.entries path → fs.contents n ≠ none

/-! ## One step -/

/-- What every step has in common: a name can refer to what it could before or does now, and what
was synced and has not changed still is. -/
structure Follows (disk : Disk) (fs : FileSystem) (disk' : Disk) (fs' : FileSystem) : Prop where
  entry : ∀ path, fs'.entry path ∈ disk'.entries path
  entries : ∀ path x, x ∈ disk'.entries path → x ∈ disk.entries path ∨ fs'.entry path = x
  synced : ∀ n ∈ disk.synced, fs'.contents n = fs.contents n → n ∈ disk'.synced

variable {disk disk' : Disk} {fs fs' : FileSystem} {e : Event} {parent : Path → Path}
  {directory : Option Path}

lemma follows_follow (disk : Disk) (fs fs' : FileSystem) :
    Follows disk fs (disk.follow fs fs') fs' := by
  refine ⟨fun path => Set.mem_insert _ _, fun path x hx => ?_, fun n hn hsame => ⟨hn, hsame⟩⟩
  rcases Set.mem_insert_iff.mp hx with rfl | hbefore
  · exact .inr rfl
  · exact .inl hbefore

lemma follows_after (h : disk.Knows fs) (parent : Path → Path) (directory : Option Path) (e : Event) :
    Follows disk fs (disk.after parent directory fs e) (fs.after e) := by
  unfold after
  split
  · exact ⟨h.entry, fun _ _ hx => .inl hx, fun _ hn _ => .inl hn⟩
  · refine ⟨fun path => ?_, fun path x hx => ?_, fun _ hn _ => hn⟩
    · show fs.entry path ∈ ite _ _ _
      split
      · exact rfl
      · exact h.entry path
    · have hx' : x ∈ if directory = some (parent path) then {fs.entry path} else disk.entries path := hx
      split at hx'
      · exact .inr (Set.mem_singleton_iff.mp hx').symm
      · exact .inl hx'
  · exact follows_follow disk fs _

/-- A file does not cease to exist while it is open or has a name. -/
lemma contents_after_ne_none {n : ℕ} (h : fs.contents n ≠ none) (e : Event) :
    (fs.after e).contents n ≠ none := by
  have hupdate : ∀ (m : ℕ) (bytes : ByteString.Bytes),
      Function.update fs.contents m (some bytes) n ≠ none := by
    intro m bytes
    by_cases hm : n = m
    · subst hm
      simp
    · rwa [Function.update_of_ne hm]
  have htransfer : ∀ m data moved, (fs.transfer m data moved).contents n ≠ none := by
    intro m data moved
    unfold FileSystem.transfer
    cases fs.stream m with
    | none => exact h
    | some s => exact hupdate _ _
  -- No call removes the contents of a file: it writes them anew, or leaves them.
  unfold FileSystem.after
  split
  · exact hupdate _ _
  · split
    · exact hupdate _ _
    · exact hupdate _ _
  · exact htransfer _ _ _
  · exact htransfer _ _ _
  · exact htransfer _ _ _
  · exact h
  · exact h
  · exact h

/-- What a name refers to exists. -/
lemma contents_of_entry_after (h : ∀ path n, fs.entry path = some n → fs.contents n ≠ none)
    {path : Path} {n : ℕ} (hentry : (fs.after e).entry path = some n) :
    (fs.after e).contents n ≠ none := by
  have hcreate : ∀ (path' : Path) (m : ℕ), Function.update fs.entry path' (some m) path = some n →
      Function.update fs.contents m (some []) n ≠ none := by
    intro path' m hupdate
    by_cases hm : n = m
    · subst hm
      simp
    · rw [Function.update_of_ne hm]
      by_cases hpath : path = path'
      · subst hpath
        rw [Function.update_self, Option.some.injEq] at hupdate
        exact absurd hupdate.symm hm
      · rw [Function.update_of_ne hpath] at hupdate
        exact h path n hupdate
  have hbefore : fs.entry path = some n → (fs.after e).contents n ≠ none := by
    intro hold
    exact contents_after_ne_none (h path n hold) e
  -- Entries come from creating a file and from `link`, and go with `unlink`.
  unfold FileSystem.after at hentry
  split at hentry
  · exact hcreate _ _ hentry
  · rename_i path' m
    split at hentry
    · exact hbefore hentry
    · rename_i hnone
      simp only [FileSystem.after, hnone]
      exact hcreate _ _ hentry
  · exact hbefore (by simpa using hentry)
  · exact hbefore (by simpa using hentry)
  · apply hbefore
    simpa [FileSystem.dropBuffer] using hentry
  · rename_i source target
    by_cases hpath : path = target
    · subst hpath
      simp only [Function.update_self] at hentry
      exact contents_after_ne_none (h source n hentry) _
    · simp only [Function.update_of_ne hpath] at hentry
      exact hbefore hentry
  · rename_i path'
    by_cases hpath : path = path'
    · subst hpath
      simp [Function.update_self] at hentry
    · simp only [Function.update_of_ne hpath] at hentry
      exact hbefore hentry
  · exact hbefore hentry

/-- A directory that is synced forgets what its names referred to before. -/
lemma entry_of_mem_sync {path : Path} {x : Option ℕ} (hdirectory : directory = some (parent path))
    (hx : x ∈ (disk.after parent directory fs (.syncDirectory true)).entries path) :
    fs.entry path = x := by
  have hx' : x ∈ if directory = some (parent path) then {fs.entry path} else disk.entries path := hx
  rw [if_pos hdirectory] at hx'
  exact (Set.mem_singleton_iff.mp hx').symm

/-- A file that is synced is on the disk. -/
lemma mem_synced_fsync {n file : ℕ} {s : Stream} (hstream : fs.stream n = some s)
    (hfile : s.file = file) : file ∈ (disk.after parent directory fs (.fsync n true)).synced :=
  .inr ⟨s, hstream, hfile⟩

lemma Knows.of_follows (h : disk.Knows fs) (hfollows : Follows disk fs disk' fs')
    (hcontents : ∀ n, fs.contents n ≠ none → fs'.contents n ≠ none)
    (hentry : ∀ path n, fs'.entry path = some n → fs'.contents n ≠ none) : disk'.Knows fs' := by
  refine ⟨hfollows.entry, fun path n hn => ?_⟩
  rcases hfollows.entries path (some n) hn with hbefore | hnow
  · exact hcontents n (h.contents_ne_none path n hbefore)
  · exact hentry path n hnow

lemma Knows.after (h : disk.Knows fs) (parent : Path → Path) (directory : Option Path) (e : Event) :
    (disk.after parent directory fs e).Knows (fs.after e) := by
  apply h.of_follows (follows_after h parent directory e)
  · intro n hn
    exact contents_after_ne_none hn e
  · intro path n hentry
    apply contents_of_entry_after _ hentry
    intro path n hn
    exact h.contents_ne_none path n (hn ▸ h.entry path)

lemma Knows.creates (h : disk.Knows fs) (hcreates : fs.Creates fs') :
    (disk.follow fs fs').Knows fs' := by
  obtain ⟨path, n, bytes, hnone, hfresh, rfl⟩ := hcreates
  have hcontents : ∀ m, fs.contents m ≠ none → (fs.create path n bytes).contents m ≠ none := by
    intro m hm
    by_cases hmn : m = n
    · subst hmn
      simp [FileSystem.create]
    · simpa [FileSystem.create, Function.update_of_ne hmn] using hm
  apply h.of_follows (follows_follow disk fs _) hcontents
  intro path' m hentry
  by_cases hpath : path' = path
  · subst hpath
    simp only [FileSystem.create, Function.update_self, Option.some.injEq] at hentry
    subst hentry
    simp [FileSystem.create]
  · simp only [FileSystem.create, Function.update_of_ne hpath] at hentry
    apply hcontents
    exact h.contents_ne_none path' m (hentry ▸ h.entry path')

/-- A crash can lose the streams and nothing else. -/
lemma Knows.survives (h : disk.Knows fs) : disk.Survives fs { fs with stream := fun _ => none } :=
  ⟨h.entry, fun _ _ => rfl, fun _ => rfl⟩

end Disk

/-! ## Synced directories -/

/-- The directory was synced behind an event. -/
def SyncedBehind (directory : Path) (e : Event) (done : List Event) : Prop :=
  ∃ front back, done = front ++ .syncDirectory true :: back ∧ e ∈ front ∧
    openedDirectory front = some directory

lemma SyncedBehind.of_concat {directory : Path} {e x : Event} {done : List Event}
    (h : SyncedBehind directory x (done ++ [e])) :
    SyncedBehind directory x done ∨
      e = .syncDirectory true ∧ x ∈ done ∧ openedDirectory done = some directory := by
  obtain ⟨front, back, heq, hx, hdirectory⟩ := h
  cases back using List.reverseRecOn with
  | nil =>
    obtain ⟨rfl, hlast⟩ := List.append_inj' heq rfl
    obtain rfl : e = .syncDirectory true := by simpa using hlast
    exact .inr ⟨rfl, hx, hdirectory⟩
  | append_singleton back last =>
    rw [← List.cons_append, ← List.append_assoc] at heq
    obtain ⟨hdone, -⟩ := List.append_inj' heq rfl
    exact .inl ⟨front, back, hdone, hx, hdirectory⟩

lemma SyncedBehind.mem {directory : Path} {x : Event} {done : List Event}
    (h : SyncedBehind directory x done) : x ∈ done := by
  obtain ⟨front, back, rfl, hx, -⟩ := h
  exact List.mem_append_left _ hx

/-! ## Executions with a disk -/

section DiskExecution

variable {ι : Type} [DecidableEq ι]

/-- An execution, with what is known of the disk. -/
inductive DiskExecution (parent : Path → Path) (admits : FileSystem → Event → Prop)
    (trace : ι → List Event) (fs₀ : FileSystem) (disk₀ : Disk) :
    FileSystem → Disk → (ι → List Event) → Prop
  | start : DiskExecution parent admits trace fs₀ disk₀ fs₀ disk₀ fun _ => []
  | call {fs : FileSystem} {disk : Disk} {done : ι → List Event} (i : ι) (e : Event) :
    DiskExecution parent admits trace fs₀ disk₀ fs disk done → done i ++ [e] <+: trace i →
    fs.Possible e → admits fs e →
    DiskExecution parent admits trace fs₀ disk₀ (fs.after e)
      (disk.after parent (openedDirectory (done i)) fs e)
      (Function.update done i (done i ++ [e]))
  | other {fs fs' : FileSystem} {disk : Disk} {done : ι → List Event} :
    DiskExecution parent admits trace fs₀ disk₀ fs disk done → fs.Creates fs' →
    DiskExecution parent admits trace fs₀ disk₀ fs' (disk.follow fs fs') done

variable {parent : Path → Path} {admits : FileSystem → Event → Prop} {trace : ι → List Event}
  {fs₀ fs : FileSystem} {disk₀ disk : Disk} {done : ι → List Event}

/-- The disk does not restrict what the programs do. -/
lemma DiskExecution.execution (h : DiskExecution parent admits trace fs₀ disk₀ fs disk done) :
    Execution admits trace fs₀ fs done := by
  induction h with
  | start => exact .start
  | call i e _ hnext hpossible hadmits ih => exact .call i e ih hnext hpossible hadmits
  | other _ hcreates ih => exact .other ih hcreates

/-- Every execution has a disk. -/
lemma Execution.exists_disk (h : Execution admits trace fs₀ fs done) (parent : Path → Path)
    (disk₀ : Disk) : ∃ disk, DiskExecution parent admits trace fs₀ disk₀ fs disk done := by
  induction h with
  | start => exact ⟨disk₀, .start⟩
  | call i e _ hnext hpossible hadmits ih =>
    obtain ⟨disk, hdisk⟩ := ih
    exact ⟨_, .call i e hdisk hnext hpossible hadmits⟩
  | other _ hcreates ih =>
    obtain ⟨disk, hdisk⟩ := ih
    exact ⟨_, .other hdisk hcreates⟩

lemma DiskExecution.knows (h : DiskExecution parent admits trace fs₀ disk₀ fs disk done)
    (hstart : disk₀.Knows fs₀) : disk.Knows fs := by
  induction h with
  | start => exact hstart
  | call i e _ _ _ _ ih => exact ih.after _ _ e
  | other _ hcreates ih => exact ih.creates hcreates

end DiskExecution

end Posix
