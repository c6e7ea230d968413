import Mathlib.Logic.Function.Basic
import SecureKit.Base.Iostream

/-!
# POSIX files as several programs see them

A file system has names and files.  `FileSystem.entry` says which file a name refers to, several
names may refer to one file, and a file without a name still has its contents.  A `FILE *` is a
`Stream`: the file it was opened on, and what it holds back in its buffer.  Files and streams are
numbered, and a number is never used again.  Symbolic links, permissions and the directories
themselves are left out.

## Programs and their traces

What a program does to the file system is the list of its system calls, each with the answer it
got: its trace, a list of `Event`.  Every answer may be a failure.  `FileSystem.Possible` says which
answers a file system can give, and `FileSystem.after` what a call with an answer does to it.

`Execution` interleaves any number of programs that share one file system, and other processes that
create files.  A program goes through its trace; as a trace contains the answers, an execution can
follow it only as far as the file system gives these answers.  `Execution.invariant` derives what
holds in all executions from an automaton that accepts the traces.

## Who touches a file

`FileSystem.Touches` are the files a call truncates, writes, links or removes a name of.  The frame
rule `FileSystem.frame` says that a call changes nothing about the others.
-/

namespace Posix

open ByteString Iostream

/-- A path name, as the bytes the system gets. -/
abbrev Path := Bytes

/-! ## System calls and their answers -/

/-- What `open(path, O_CREAT | O_EXCL)` answers. -/
inductive Creation
  | created (handle : ℕ)
  | already_exists
  | failed
  deriving DecidableEq

/-- What `link(source, target)` answers. -/
inductive Linking
  | linked
  | already_exists
  | failed
  deriving DecidableEq

/-- A system call or a call of the C library, with its answer.  For the calls that pass data on to
the file, `moved` is how much of the buffer reaches it. -/
inductive Event
  /-- `exists(path)`, with `none` for a failed check. -/
  | status (path : Path) (answer : Option Bool)
  /-- `open(path, O_WRONLY | O_CREAT | O_EXCL, 0600)` -/
  | openExclusive (path : Path) (answer : Creation)
  /-- `fdopen(handle, "wb")` -/
  | fdopen (handle : ℕ) (ok : Bool)
  /-- `close(handle)`, of a descriptor without a `FILE *`. -/
  | closeDescriptor (handle : ℕ)
  /-- `fopen(path, "wb")`, which creates the file or truncates it. -/
  | openTruncated (path : Path) (answer : Option ℕ)
  /-- An input stream is opened, and delivers the given source. -/
  | openInput (path : Path) (answer : Option Source)
  /-- `fwrite(data, 1, size, handle)` -/
  | fwrite (handle : ℕ) (data : Bytes) (accepted moved : ℕ)
  /-- `fflush(handle)` -/
  | fflush (handle : ℕ) (ok : Bool) (moved : ℕ)
  /-- `fsync(fileno(handle))` -/
  | fsync (handle : ℕ) (ok : Bool)
  /-- `fclose(handle)` -/
  | fclose (handle : ℕ) (ok : Bool) (moved : ℕ)
  /-- `link(source, target)` -/
  | link (source target : Path) (answer : Linking)
  /-- `unlink(path)` -/
  | unlink (path : Path) (ok : Bool)
  /-- `open(path, O_RDONLY)` of a directory. -/
  | openDirectory (path : Path) (ok : Bool)
  /-- `fsync` of a directory. -/
  | syncDirectory (ok : Bool)
  /-- `close` of a directory. -/
  | closeDirectory (ok : Bool)

/-- The answers a program gets.  They may depend on how many calls it has made. -/
structure Kernel where
  status : ℕ → Path → Option Bool
  openExclusive : ℕ → Path → Creation
  fdopen : ℕ → ℕ → Bool
  openTruncated : ℕ → Path → Option ℕ
  openInput : ℕ → Path → Option Source
  fwrite : ℕ → ℕ → Bytes → ℕ × ℕ
  fflush : ℕ → ℕ → Bool × ℕ
  fsync : ℕ → ℕ → Bool
  fclose : ℕ → ℕ → Bool × ℕ
  link : ℕ → Path → Path → Linking
  unlink : ℕ → Path → Bool
  openDirectory : ℕ → Path → Bool
  syncDirectory : ℕ → Bool
  closeDirectory : ℕ → Bool

/-! ## The file system -/

/-- An open `FILE *`. -/
structure Stream where
  file : ℕ
  buffered : Bytes := []

/-- The names, the files that exist or have existed, and the streams on them. -/
structure FileSystem where
  entry : Path → Option ℕ
  contents : ℕ → Option Bytes
  stream : ℕ → Option Stream

namespace FileSystem

/-- A number that was never used. -/
structure Fresh (fs : FileSystem) (n : ℕ) : Prop where
  contents : fs.contents n = none
  stream : fs.stream n = none
  entry : ∀ path, fs.entry path ≠ some n

/-- A new file with a name. -/
def create (fs : FileSystem) (path : Path) (n : ℕ) (bytes : Bytes) : FileSystem :=
  { fs with
    entry := Function.update fs.entry path (some n)
    contents := Function.update fs.contents n (some bytes) }

/-- A new stream on a file. -/
def attach (fs : FileSystem) (n file : ℕ) : FileSystem :=
  { fs with stream := Function.update fs.stream n (some { file }) }

/-- Data is put into the buffer of a stream, and `moved` bytes of the buffer reach the file. -/
def transfer (fs : FileSystem) (n : ℕ) (data : Bytes) (moved : ℕ) : FileSystem :=
  match fs.stream n with
  | none => fs
  | some s =>
    { fs with
      contents := Function.update fs.contents s.file
        (some ((fs.contents s.file).getD [] ++ (s.buffered ++ data).take moved))
      stream := Function.update fs.stream n
        (some { s with buffered := (s.buffered ++ data).drop moved }) }

/-- How much the stream holds back. -/
def pending (fs : FileSystem) (n : ℕ) : ℕ :=
  match fs.stream n with
  | none => 0
  | some s => s.buffered.length

/-- What is still in the buffer is lost. -/
def dropBuffer (fs : FileSystem) (n : ℕ) : FileSystem :=
  { fs with stream := Function.update fs.stream n ((fs.stream n).map fun s => { file := s.file }) }

/-- The answers the file system can give. -/
def Possible (fs : FileSystem) : Event → Prop
  | .status path (some answer) => answer = (fs.entry path).isSome
  | .openExclusive path (.created n) => fs.entry path = none ∧ fs.Fresh n
  | .openExclusive path .already_exists => fs.entry path ≠ none
  | .openTruncated _ (some n) => fs.Fresh n
  | .link source target .linked => fs.entry source ≠ none ∧ fs.entry target = none
  | .link _ target .already_exists => fs.entry target ≠ none
  | _ => True

/-- What a call does. -/
def after (fs : FileSystem) : Event → FileSystem
  | .openExclusive path (.created n) => (fs.create path n []).attach n n
  | .openTruncated path (some n) =>
    match fs.entry path with
    | some file => { fs with contents := Function.update fs.contents file (some []) }.attach n file
    | none => (fs.create path n []).attach n n
  | .fwrite n data accepted moved => fs.transfer n (data.take accepted) moved
  | .fflush n ok moved => fs.transfer n [] (if ok then fs.pending n else moved)
  | .fclose n ok moved => (fs.transfer n [] (if ok then fs.pending n else moved)).dropBuffer n
  | .link source target .linked =>
    { fs with entry := Function.update fs.entry target (fs.entry source) }
  | .unlink path true => { fs with entry := Function.update fs.entry path none }
  | _ => fs

/-- A file is truncated, written, or linked, or loses a name. -/
def Touches (fs : FileSystem) : Event → ℕ → Prop
  | .openTruncated path (some _), file => fs.entry path = some file
  | .fwrite n _ _ _, file | .fflush n _ _, file | .fclose n _ _, file =>
    ∃ s, fs.stream n = some s ∧ s.file = file
  | .link source _ .linked, file => fs.entry source = some file
  | .unlink path true, file => fs.entry path = some file
  | _, _ => False

/-- Another process creates a file. -/
def Creates (fs fs' : FileSystem) : Prop :=
  ∃ path n bytes, fs.entry path = none ∧ fs.Fresh n ∧ fs' = fs.create path n bytes

@[simp] lemma entry_transfer (fs : FileSystem) (n : ℕ) (data : Bytes) (moved : ℕ) :
    (fs.transfer n data moved).entry = fs.entry := by
  unfold transfer
  cases fs.stream n <;> rfl

/-! ## The frame rule -/

/-- Nothing about the file has changed: its contents, its names, and the stream of its creator. -/
structure Same (file : ℕ) (fs fs' : FileSystem) : Prop where
  contents : fs'.contents file = fs.contents file
  entry_iff : ∀ path, fs'.entry path = some file ↔ fs.entry path = some file
  stream : ∀ buffered, fs.stream file = some ⟨file, buffered⟩ →
    fs'.stream file = some ⟨file, buffered⟩

variable {fs fs' : FileSystem} {e : Event} {file n : ℕ} {path : Path}

lemma Same.refl (file : ℕ) (fs : FileSystem) : Same file fs fs :=
  ⟨rfl, fun _ => Iff.rfl, fun _ h => h⟩

lemma Same.trans {fs₁ fs₂ fs₃ : FileSystem} (h : Same file fs₁ fs₂) (h' : Same file fs₂ fs₃) :
    Same file fs₁ fs₃ :=
  ⟨h'.contents.trans h.contents, fun path => (h'.entry_iff path).trans (h.entry_iff path),
    fun b hb => h'.stream b (h.stream b hb)⟩

lemma ne_of_fresh (h : fs.Fresh n) (hfile : fs.contents file ≠ none) : file ≠ n := by
  intro heq
  exact hfile (heq ▸ h.contents)

lemma same_create (hentry : fs.entry path = none) (hfresh : fs.Fresh n)
    (hfile : fs.contents file ≠ none) (bytes : Bytes) : Same file fs (fs.create path n bytes) := by
  have hne := ne_of_fresh hfresh hfile
  refine ⟨Function.update_of_ne hne _ _, fun path' => ?_, fun _ h => h⟩
  by_cases h : path' = path
  · subst h
    simp only [create, Function.update_self, Option.some.injEq, hentry, reduceCtorEq, iff_false]
    exact Ne.symm hne
  · simp only [create, Function.update_of_ne h]

lemma same_attach (hfresh : fs.stream n = none) (m : ℕ) : Same file fs (fs.attach n m) := by
  refine ⟨rfl, fun _ => Iff.rfl, fun b hb => ?_⟩
  have hne : file ≠ n := by
    intro heq
    rw [heq, hfresh] at hb
    cases hb
  simpa only [attach, Function.update_of_ne hne] using hb

lemma same_create_attach (hentry : fs.entry path = none) (hfresh : fs.Fresh n)
    (hfile : fs.contents file ≠ none) : Same file fs ((fs.create path n []).attach n n) := by
  apply (same_create hentry hfresh hfile []).trans
  apply same_attach
  exact hfresh.stream

lemma Creates.same (h : fs.Creates fs') (hfile : fs.contents file ≠ none) : Same file fs fs' := by
  obtain ⟨path, n, bytes, hentry, hfresh, rfl⟩ := h
  exact same_create hentry hfresh hfile bytes

/-- Another process takes no name that is in use. -/
lemma Creates.entry_eq (h : fs.Creates fs') (hentry : fs.entry path ≠ none) :
    fs'.entry path = fs.entry path := by
  obtain ⟨path', n, bytes, hnone, -, rfl⟩ := h
  apply Function.update_of_ne
  intro heq
  exact hentry (heq ▸ hnone)

/-- A stream on another file does not change this one. -/
lemma same_transfer (hother : ∀ s, fs.stream n = some s → s.file ≠ file) (data : Bytes)
    (moved : ℕ) : Same file fs (fs.transfer n data moved) := by
  unfold transfer
  cases hstream : fs.stream n with
  | none => exact Same.refl file fs
  | some s =>
    refine ⟨Function.update_of_ne (Ne.symm (hother s hstream)) _ _, fun _ => Iff.rfl, fun b hb => ?_⟩
    have hne : file ≠ n := by
      intro heq
      rw [← heq, hb] at hstream
      exact hother s (by rw [← heq, hb, hstream]) (by cases hstream; rfl)
    simpa only [Function.update_of_ne hne] using hb

lemma stream_transfer (h : ∀ s, fs.stream n = some s → s.file ≠ file) (data : Bytes)
    (moved : ℕ) : ∀ s, (fs.transfer n data moved).stream n = some s → s.file ≠ file := by
  unfold transfer
  cases hstream : fs.stream n with
  | none =>
    intro s hs
    exact h s hs
  | some s' =>
    intro s hs
    simp only [Function.update_self, Option.some.injEq] at hs
    subst hs
    exact h s' hstream

lemma same_dropBuffer (hother : ∀ s, fs.stream n = some s → s.file ≠ file) :
    Same file fs (fs.dropBuffer n) := by
  refine ⟨rfl, fun _ => Iff.rfl, fun b hb => ?_⟩
  have hne : file ≠ n := by
    intro heq
    subst heq
    exact hother _ hb rfl
  simpa only [dropBuffer, Function.update_of_ne hne] using hb

/-- **The frame rule**: a file that a call does not touch stays as it is. -/
theorem frame (hpossible : fs.Possible e) (hnot : ¬ fs.Touches e file)
    (hfile : fs.contents file ≠ none) : Same file fs (fs.after e) := by
  have hothers : ∀ {n}, (¬ ∃ s, fs.stream n = some s ∧ s.file = file) →
      ∀ s, fs.stream n = some s → s.file ≠ file := by
    intro n h s hs heq
    exact h ⟨s, hs, heq⟩
  cases e with
  -- Calls that change nothing but the state of a descriptor.
  | status | fdopen | closeDescriptor | openInput | fsync | openDirectory | syncDirectory
  | closeDirectory => exact Same.refl file fs
  | openExclusive path answer =>
    cases answer with
    | created n =>
      obtain ⟨hentry, hfresh⟩ := hpossible
      exact same_create_attach hentry hfresh hfile
    | already_exists | failed => exact Same.refl file fs
  | openTruncated path answer =>
    cases answer with
    | none => exact Same.refl file fs
    | some n =>
      -- An existing file is cut off, and that is touching it.
      cases hentry : fs.entry path with
      | none =>
        simp only [after, hentry]
        exact same_create_attach hentry hpossible hfile
      | some f =>
        have hne : file ≠ f := by
          intro heq
          exact hnot (heq ▸ hentry)
        have hcut : Same file fs { fs with contents := Function.update fs.contents f (some []) } :=
          ⟨Function.update_of_ne hne _ _, fun _ => Iff.rfl, fun _ h => h⟩
        simp only [after, hentry]
        apply hcut.trans
        apply same_attach
        exact hpossible.stream
  | fwrite n data accepted moved => exact same_transfer (hothers hnot) _ _
  | fflush n ok moved => exact same_transfer (hothers hnot) _ _
  | fclose n ok moved =>
    exact (same_transfer (hothers hnot) _ _).trans
      (same_dropBuffer (stream_transfer (hothers hnot) _ _))
  | link source target answer =>
    cases answer with
    | already_exists | failed => exact Same.refl file fs
    | linked =>
      refine ⟨rfl, fun path => ?_, fun _ h => h⟩
      unfold after
      by_cases h : path = target
      · -- The name was free, so it did not refer to the file.
        subst h
        simp only [Function.update_self, hpossible.2, reduceCtorEq, iff_false]
        exact hnot
      · simp only [Function.update_of_ne h]
  | unlink path ok =>
    cases ok with
    | false => exact Same.refl file fs
    | true =>
      refine ⟨rfl, fun path' => ?_, fun _ h => h⟩
      unfold after
      by_cases h : path' = path
      · subst h
        simp only [Function.update_self, reduceCtorEq, false_iff]
        exact hnot
      · simp only [Function.update_of_ne h]

lemma Fresh.attach (h : fs.Fresh file) {m : ℕ} (hn : n ≠ file) : (fs.attach n m).Fresh file := by
  refine ⟨h.contents, ?_, h.entry⟩
  simpa only [FileSystem.attach, Function.update_of_ne hn.symm] using h.stream

lemma Fresh.create (h : fs.Fresh file) (path : Path) (hn : n ≠ file) (bytes : Bytes) :
    (fs.create path n bytes).Fresh file := by
  refine ⟨?_, h.stream, fun path' => ?_⟩
  · simpa only [FileSystem.create, Function.update_of_ne hn.symm] using h.contents
  · by_cases hpath : path' = path
    · simp [FileSystem.create, hpath, hn]
    · simpa only [FileSystem.create, Function.update_of_ne hpath] using h.entry path'

/-- A stream on another file leaves a new one new. -/
lemma Fresh.transfer (h : fs.Fresh file) (hother : ¬ ∃ s, fs.stream n = some s ∧ s.file = file)
    (data : Bytes) (moved : ℕ) : (fs.transfer n data moved).Fresh file := by
  unfold FileSystem.transfer
  cases hstream : fs.stream n with
  | none => exact h
  | some s =>
    have hne : s.file ≠ file := fun heq => hother ⟨s, hstream, heq⟩
    have hn : n ≠ file := by
      rintro rfl
      rw [h.stream] at hstream
      cases hstream
    refine ⟨?_, ?_, h.entry⟩
    · simpa only [Function.update_of_ne hne.symm] using h.contents
    · simpa only [Function.update_of_ne hn.symm] using h.stream

lemma Fresh.dropBuffer (h : fs.Fresh file) (n : ℕ) : (fs.dropBuffer n).Fresh file := by
  refine ⟨h.contents, ?_, h.entry⟩
  by_cases hn : file = n
  · subst hn
    simp [FileSystem.dropBuffer, h.stream]
  · simpa only [FileSystem.dropBuffer, Function.update_of_ne hn] using h.stream

/-- What is new stays so, unless it is created. -/
lemma Fresh.after (h : fs.Fresh file) (hnot : ¬ fs.Touches e file)
    (hexclusive : ∀ path, e ≠ .openExclusive path (.created file))
    (htruncated : ∀ path, e ≠ .openTruncated path (some file)) : (fs.after e).Fresh file := by
  cases e with
  | status | fdopen | closeDescriptor | openInput | fsync | openDirectory | syncDirectory
  | closeDirectory => exact h
  | openExclusive path answer =>
    cases answer with
    | already_exists | failed => exact h
    | created n =>
      have hne : n ≠ file := by
        rintro rfl
        exact hexclusive path rfl
      exact (h.create path hne []).attach hne
  | openTruncated path answer =>
    cases answer with
    | none => exact h
    | some n =>
      have hne : n ≠ file := by
        rintro rfl
        exact htruncated path rfl
      cases hentry : fs.entry path with
      | none =>
        simp only [FileSystem.after, hentry]
        exact (h.create path hne []).attach hne
      | some f =>
        have hf : f ≠ file := by
          rintro rfl
          exact h.entry path hentry
        simp only [FileSystem.after, hentry]
        have hcut : FileSystem.Fresh { fs with contents := Function.update fs.contents f (some []) }
            file := by
          refine ⟨?_, h.stream, h.entry⟩
          simpa only [Function.update_of_ne hf.symm] using h.contents
        exact hcut.attach hne
  | fwrite n data accepted moved => exact h.transfer hnot _ _
  | fflush n ok moved => exact h.transfer hnot _ _
  | fclose n ok moved => exact (h.transfer hnot _ _).dropBuffer n
  | link source target answer =>
    cases answer with
    | already_exists | failed => exact h
    | linked =>
      refine ⟨h.contents, h.stream, fun path => ?_⟩
      by_cases hpath : path = target
      · subst hpath
        simp only [FileSystem.after, Function.update_self]
        exact hnot
      · simpa only [FileSystem.after, Function.update_of_ne hpath] using h.entry path
  | unlink path ok =>
    cases ok with
    | false => exact h
    | true =>
      refine ⟨h.contents, h.stream, fun path' => ?_⟩
      by_cases hpath : path' = path
      · simp [FileSystem.after, hpath]
      · simpa only [FileSystem.after, Function.update_of_ne hpath] using h.entry path'

/-! ## What the creator of a file knows of it -/

/-- The file is written through one stream, which has accepted `bytes`: some of them are in the file
and the rest is in the buffer. -/
def Accepted (fs : FileSystem) (n : ℕ) (bytes : Bytes) : Prop :=
  ∃ front back, fs.contents n = some front ∧ fs.stream n = some ⟨n, back⟩ ∧ front ++ back = bytes

/-- All the bytes are in the file. -/
def Settled (fs : FileSystem) (n : ℕ) (bytes : Bytes) : Prop :=
  fs.contents n = some bytes ∧ fs.stream n = some ⟨n, []⟩

variable {bytes : Bytes}

lemma Settled.accepted (h : fs.Settled n bytes) : fs.Accepted n bytes :=
  ⟨bytes, [], h.1, h.2, List.append_nil bytes⟩

lemma Accepted.contents_ne_none (h : fs.Accepted n bytes) : fs.contents n ≠ none := by
  obtain ⟨front, back, hcontents, -, -⟩ := h
  simp [hcontents]

lemma Accepted.of_same (h : fs.Accepted n bytes) (hsame : Same n fs fs') : fs'.Accepted n bytes := by
  obtain ⟨front, back, hcontents, hstream, hbytes⟩ := h
  exact ⟨front, back, by rw [hsame.contents, hcontents], hsame.stream back hstream, hbytes⟩

lemma Settled.of_same (h : fs.Settled n bytes) (hsame : Same n fs fs') : fs'.Settled n bytes :=
  ⟨by rw [hsame.contents, h.1], hsame.stream [] h.2⟩

lemma accepted_create (fs : FileSystem) (path : Path) (n : ℕ) :
    ((fs.create path n []).attach n n).Accepted n [] :=
  ⟨[], [], by simp [create, attach], by simp [attach], rfl⟩

/-- However much of the buffer is passed on, the stream has accepted the same. -/
lemma Accepted.transfer (h : fs.Accepted n bytes) (data : Bytes) (moved : ℕ) :
    (fs.transfer n data moved).Accepted n (bytes ++ data) := by
  obtain ⟨front, back, hcontents, hstream, rfl⟩ := h
  refine ⟨front ++ (back ++ data).take moved, (back ++ data).drop moved, ?_, ?_, ?_⟩
  · simp [FileSystem.transfer, hstream, hcontents]
  · simp [FileSystem.transfer, hstream]
  · rw [List.append_assoc, List.take_append_drop, List.append_assoc]

/-- A flush that succeeds passes everything on. -/
lemma Accepted.settled (h : fs.Accepted n bytes) :
    (fs.transfer n [] (fs.pending n)).Settled n bytes := by
  obtain ⟨front, back, hcontents, hstream, rfl⟩ := h
  constructor
  · simp [FileSystem.transfer, pending, hstream, hcontents]
  · simp [FileSystem.transfer, pending, hstream]

lemma Settled.transfer (h : fs.Settled n bytes) (moved : ℕ) :
    (fs.transfer n [] moved).Settled n bytes := by
  constructor
  · simp [FileSystem.transfer, h.1, h.2]
  · simp [FileSystem.transfer, h.2]

lemma Settled.dropBuffer (h : fs.Settled n bytes) : (fs.dropBuffer n).Settled n bytes := by
  refine ⟨h.1, ?_⟩
  simp [FileSystem.dropBuffer, h.2]

/-- A file that is closed is still one that was written through one stream. -/
lemma Accepted.dropBuffer (h : fs.Accepted n bytes) :
    ∃ rest, (fs.dropBuffer n).Accepted n rest := by
  obtain ⟨front, back, hcontents, hstream, -⟩ := h
  refine ⟨front, front, [], hcontents, ?_, List.append_nil front⟩
  simp [FileSystem.dropBuffer, hstream]

/-- A stream is closed: what it has accepted is in the file, or not all of it. -/
lemma Accepted.exists_fclose (h : fs.Accepted n bytes) (ok : Bool) (moved : ℕ) :
    ∃ rest, (fs.after (.fclose n ok moved)).Accepted n rest := by
  have htransfer := h.transfer [] (if ok then fs.pending n else moved)
  exact htransfer.dropBuffer

/-- Whatever the stream of the creator does concerns its file only. -/
lemma Accepted.touches (h : fs.Accepted n bytes) {file : ℕ}
    (htouches : ∃ s, fs.stream n = some s ∧ s.file = file) : file = n := by
  obtain ⟨front, back, -, hstream, -⟩ := h
  obtain ⟨s, hs, rfl⟩ := htouches
  rw [hstream] at hs
  cases hs
  rfl

end FileSystem

/-! ## Automata over traces -/

section Automata

variable {σ : Type} {next : σ → Event → Option σ} {s u : σ}

lemma foldlM_append_iff {before after : List Event} :
    (before ++ after).foldlM next s = some u ↔
      ∃ t, before.foldlM next s = some t ∧ after.foldlM next t = some u := by
  rw [List.foldlM_append]
  exact Option.bind_eq_some_iff

lemma foldlM_concat_iff {trace : List Event} {e : Event} :
    (trace ++ [e]).foldlM next s = some u ↔
      ∃ t, trace.foldlM next s = some t ∧ next t e = some u := by
  rw [foldlM_append_iff]
  simp

/-- One event more. -/
lemma foldlM_concat {trace : List Event} (h : trace.foldlM next s = some u) (e : Event) :
    (trace ++ [e]).foldlM next s = next u e := by
  rw [List.foldlM_append, h]
  simp

end Automata

/-! ## Programs that run at the same time -/

section Execution

variable {ι : Type} [DecidableEq ι]

/-- Any number of programs share a file system with each other and with processes that create files.
`done i` is how far program `i` has come in its trace; `admits` restricts the steps of the
programs. -/
inductive Execution (admits : FileSystem → Event → Prop) (trace : ι → List Event)
    (fs₀ : FileSystem) : FileSystem → (ι → List Event) → Prop
  | start : Execution admits trace fs₀ fs₀ fun _ => []
  | call {fs : FileSystem} {done : ι → List Event} (i : ι) (e : Event) :
    Execution admits trace fs₀ fs done → done i ++ [e] <+: trace i → fs.Possible e →
    admits fs e → Execution admits trace fs₀ (fs.after e) (Function.update done i (done i ++ [e]))
  | other {fs fs' : FileSystem} {done : ι → List Event} :
    Execution admits trace fs₀ fs done → fs.Creates fs' → Execution admits trace fs₀ fs' done

variable {admits : FileSystem → Event → Prop} {trace : ι → List Event} {fs₀ fs : FileSystem}
  {done : ι → List Event}

lemma Execution.done_prefix (h : Execution admits trace fs₀ fs done) (i : ι) :
    done i <+: trace i := by
  induction h with
  | start => exact List.nil_prefix
  | call j e _ hnext _ _ ih =>
    by_cases hij : i = j
    · subst hij
      rwa [Function.update_self]
    · rwa [Function.update_of_ne hij]
  | other _ _ ih => exact ih

/-- Every step a program has made was admitted. -/
lemma Execution.exists_admits (h : Execution admits trace fs₀ fs done) {i : ι} {e : Event}
    (hmem : e ∈ done i) : ∃ fs, admits fs e := by
  induction h with
  | start => cases hmem
  | @call fs done j e' _ _ _ hadmits ih =>
    by_cases hij : i = j
    · subst hij
      rw [Function.update_self] at hmem
      rcases List.mem_append.mp hmem with hbefore | hlast
      · exact ih hbefore
      · rw [List.mem_singleton.mp hlast]
        exact ⟨fs, hadmits⟩
    · rw [Function.update_of_ne hij] at hmem
      exact ih hmem
  | other _ _ ih => exact ih hmem

variable {σ : Type}

/-- **The invariant rule.**  The trace of each program is accepted by an automaton, and what the
states of the automata say about the file system is kept by the steps the automata admit and by the
other processes. -/
theorem Execution.invariant {next : ι → σ → Event → Option σ} {start : ι → σ}
    {I : FileSystem → (ι → σ) → Prop} (hstart : I fs₀ start)
    (haccepts : ∀ i, ∃ s, (trace i).foldlM (next i) (start i) = some s)
    (hcall : ∀ fs s i e t, I fs s → fs.Possible e → admits fs e → e ∈ trace i →
      next i (s i) e = some t → I (fs.after e) (Function.update s i t))
    (hother : ∀ fs fs' s, I fs s → fs.Creates fs' → I fs' s)
    (h : Execution admits trace fs₀ fs done) :
    ∃ s, (∀ i, (done i).foldlM (next i) (start i) = some (s i)) ∧ I fs s := by
  induction h with
  | start => exact ⟨start, fun _ => rfl, hstart⟩
  | @call fs done i e _ hnext hpossible hadmits ih =>
    obtain ⟨s, hs, hinv⟩ := ih
    -- The automaton accepts the next event as well, as it accepts the whole trace.
    obtain ⟨rest, hrest⟩ := hnext
    obtain ⟨final, hfinal⟩ := haccepts i
    rw [← hrest, foldlM_append_iff] at hfinal
    obtain ⟨t, hbefore, -⟩ := hfinal
    have ht : next i (s i) e = some t := by rwa [foldlM_concat (hs i)] at hbefore
    have hmem : e ∈ trace i := by
      rw [← hrest]
      simp
    refine ⟨Function.update s i t, fun j => ?_, hcall fs s i e t hinv hpossible hadmits hmem ht⟩
    by_cases hij : j = i
    · subst hij
      rw [Function.update_self, Function.update_self, foldlM_concat (hs j)]
      exact ht
    · rw [Function.update_of_ne hij, Function.update_of_ne hij]
      exact hs j
  | other _ hcreates ih =>
    obtain ⟨s, hs, hinv⟩ := ih
    exact ⟨s, hs, hother _ _ s hinv hcreates⟩

/-- The calls can be made one after the other. -/
inductive Unhindered (admits : FileSystem → Event → Prop) :
    FileSystem → List Event → FileSystem → Prop
  | nil (fs : FileSystem) : Unhindered admits fs [] fs
  | cons {fs fs' : FileSystem} {e : Event} {rest : List Event} : fs.Possible e → admits fs e →
    Unhindered admits (fs.after e) rest fs' → Unhindered admits fs (e :: rest) fs'

lemma Unhindered.mono {admits' : FileSystem → Event → Prop} {rest : List Event} {fs' : FileSystem}
    (h : Unhindered admits fs rest fs') (hadmits : ∀ fs e, admits fs e → admits' fs e) :
    Unhindered admits' fs rest fs' := by
  induction h with
  | nil fs => exact .nil fs
  | cons hpossible hadmitted _ ih => exact .cons hpossible (hadmits _ _ hadmitted) ih

/-- A program makes calls that nothing hinders. -/
theorem Execution.unhindered (h : Execution admits trace fs₀ fs done) {i : ι} {rest : List Event}
    {fs' : FileSystem} (hrest : Unhindered admits fs rest fs') (hnext : done i ++ rest <+: trace i) :
    Execution admits trace fs₀ fs' (Function.update done i (done i ++ rest)) := by
  induction hrest generalizing done with
  | nil fs =>
    rw [List.append_nil, Function.update_eq_self]
    exact h
  | @cons fs fs' e rest hpossible hadmits _ ih =>
    have hone : done i ++ [e] <+: trace i := by
      apply List.IsPrefix.trans _ hnext
      simp
    have hcalled := ih (.call i e h hone hpossible hadmits) (by simpa using hnext)
    simpa using hcalled

end Execution

/-! ## A single program -/

/-- A program runs beside processes that create files, and has come as far as `done`. -/
def Running (admits : FileSystem → Event → Prop) (trace : List Event) (fs₀ fs : FileSystem)
    (done : List Event) : Prop :=
  Execution admits (fun _ : Unit => trace) fs₀ fs fun _ => done

/-- The program takes a step in a run: the system answers as the trace says. -/
structure Takes (admits : FileSystem → Event → Prop) (trace : List Event) (fs₀ fs : FileSystem)
    (done : List Event) (e : Event) : Prop where
  run : Running admits trace fs₀ fs done
  next : done ++ [e] <+: trace
  possible : fs.Possible e
  admits : admits fs e

section Running

variable {admits : FileSystem → Event → Prop} {trace done : List Event} {fs₀ fs : FileSystem}
  {e : Event} {σ : Type}

lemma running_start : Running admits trace fs₀ fs₀ [] := .start

lemma Takes.running (h : Takes admits trace fs₀ fs done e) :
    Running admits trace fs₀ (fs.after e) (done ++ [e]) := by
  have hcall := Execution.call () e h.run h.next h.possible h.admits
  rwa [show Function.update (fun _ : Unit => done) () (done ++ [e]) = fun _ => done ++ [e] from
    funext fun _ => Function.update_self () _ _] at hcall

lemma Running.step (h : Running admits trace fs₀ fs done) (hnext : done ++ [e] <+: trace)
    (hpossible : fs.Possible e) (hadmits : admits fs e) :
    Running admits trace fs₀ (fs.after e) (done ++ [e]) :=
  Takes.running ⟨h, hnext, hpossible, hadmits⟩

/-- A program that nothing hinders comes to its end. -/
lemma Unhindered.running (h : Unhindered admits fs₀ trace fs) :
    Running admits trace fs₀ fs trace := by
  have hstart : Execution admits (fun _ : Unit => trace) fs₀ fs₀ fun _ => [] := .start
  have hrun := hstart.unhindered (i := ()) h (by simp)
  rwa [show Function.update (fun _ : Unit => []) () ([] ++ trace) = fun _ => trace from
    funext fun _ => Function.update_self () _ _] at hrun

/-- **The invariant rule for a single program.** -/
theorem Running.invariant {next : σ → Event → Option σ} {start final : σ}
    {I : FileSystem → σ → Prop} (hstart : I fs₀ start)
    (haccepts : trace.foldlM next start = some final)
    (hcall : ∀ {fs s e t}, I fs s → fs.Possible e → admits fs e → e ∈ trace →
      next s e = some t → I (fs.after e) t)
    (hother : ∀ {fs fs' s}, I fs s → fs.Creates fs' → I fs' s)
    (h : Running admits trace fs₀ fs done) : ∃ s, done.foldlM next start = some s ∧ I fs s := by
  have hrun : ∃ s : Unit → σ, (∀ _ : Unit, done.foldlM next start = some (s ())) ∧ I fs (s ()) := by
    apply Execution.invariant (I := fun fs (s : Unit → σ) => I fs (s ())) _ _ _ _ h
    · exact hstart
    · intro _
      exact ⟨final, haccepts⟩
    · intro fs s _ e t hinv hpossible hadmits hmem hnext
      rw [Function.update_self]
      exact hcall hinv hpossible hadmits hmem hnext
    · intro fs fs' s hinv hcreates
      exact hother hinv hcreates
  obtain ⟨s, hs, hinv⟩ := hrun
  exact ⟨s (), hs (), hinv⟩

end Running

end Posix
